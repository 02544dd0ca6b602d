import MapQuery.Proofs.Schedule.Ledger

/-!
# Generations

The deeds of an agent are a ledger whatever happens to it: its generation counts issues and aborts,
and its request in flight is the one outstanding. A reply to an aborted request comes to nothing.
-/

set_option autoImplicit false

namespace MapQuery

open Deed

namespace Refresher

/-- The deeds so far are a ledger from some first generation that ends where the refresher is. -/
abbrev HasLedger (r : Refresher) (first : Nat) (past : List Deed) : Prop :=
  Ledger first r.status.generation r.status.inFlight past

variable {first : Nat} {past deeds : List Deed} {r r' : Refresher}

theorem inFlight_abort (r : Refresher) : r.abort.1.status.inFlight = false := by
  unfold abort
  split
  · rfl
  · next h => simpa using h

theorem HasLedger.abort (h : r.HasLedger first past) :
    r.abort.1.HasLedger first (past ++ r.abort.2.map .did) := by
  unfold HasLedger at h
  cases hflight : r.status.inFlight with
  | false =>
    have hsame : r.abort = (r, []) := by simp [Refresher.abort, hflight]
    rw [hsame, List.map_nil, List.append_nil]
    exact h
  | true =>
    rw [hflight] at h
    simp only [Refresher.abort, hflight, if_true, HasLedger]
    exact h.aborted

theorem HasLedger.expiry {now : Nat} {c : Content} {result : Refresher × List Effect}
    (h : r.HasLedger first past) (hexpiry : Expiry now c r result) :
    result.1.HasLedger first (past ++ result.2.map .did) := by
  cases hexpiry with
  | rearmed | postponed =>
    rw [List.map_nil, List.append_nil]
    exact h
  | closed =>
    have habort := HasLedger.abort (r := r.disarmed) h
    simp only [close, List.map_append, ← List.append_assoc]
    exact habort.cleared
  | issued pipeline _ hflight =>
    -- Nothing is in flight, so the abort before the issue does nothing.
    have habort : r.disarmed.abort = (r.disarmed, []) := by
      simp [Refresher.abort, disarmed, hflight]
    unfold HasLedger at h
    rw [hflight] at h
    simp only [issue, habort, List.nil_append]
    exact h.issued _

theorem HasLedger.does {now : Nat} {c : Content} (h : r.HasLedger first past)
    (hdoes : r.Does now c r' deeds) : r'.HasLedger first (past ++ deeds) := by
  cases hdoes with
  | rested => simpa using h
  | unmoved visible => exact h.obeyed _
  | ignored response hstale => exact h.ignored response hstale
  | scheduled _ hdeeds =>
    rcases hdeeds with rfl | rfl
    · rw [List.append_nil]
      exact h
    · exact h.obeyed _
  | turned visible => exact h.obeyed _
  | retimed window => exact h.obeyed _
  | completed reply hflight =>
    unfold HasLedger at h
    rw [hflight] at h
    rw [List.append_cons]
    cases reply with
    | aborted =>
      rw [replyEffects, List.map_nil, List.append_nil]
      exact h.completed _
    | body text => exact h.delivered _ text
    | failed message => exact h.failed _ _
  | expired _ hexpiry => exact h.expiry hexpiry

theorem published_does {now : Nat} {c : Content} (h : r.published = r.status)
    (hdoes : r.Does now c r' deeds) : r'.published = r'.status := by
  cases hdoes with
  | rested | unmoved | ignored => exact h
  | scheduled | turned | retimed | completed => rfl
  | expired _ hexpiry =>
    cases hexpiry with
    | rearmed => exact h
    | postponed | closed | issued => rfl

end Refresher

namespace Scene

theorem hasLedger_step? {first : Nat} {past : List Deed} {s t : Scene} {m : Move}
    {effects : List Effect} (h : s.agent.refresher.HasLedger first past)
    (hstep : s.step? m = some (t, effects)) :
    t.agent.refresher.HasLedger first (past ++ s.deeds m effects) := by
  rcases changes_of_step? hstep with hdoes | ⟨-, hrefresher, hdeeds⟩
  · exact h.does hdoes
  · rw [hrefresher, hdeeds, List.append_cons]
    exact Refresher.HasLedger.abort (h.obeyed .stop)

theorem hasLedger_trace? {first : Nat} (past : List Deed) {later : List Deed} {s t : Scene}
    {moves : List Move} (h : s.agent.refresher.HasLedger first past)
    (htrace : s.trace? moves = some (t, later)) :
    t.agent.refresher.HasLedger first (past ++ later) :=
  trace?_induction (P := fun s past => s.agent.refresher.HasLedger first past)
    (fun hs hstep => hasLedger_step? hs hstep) past h htrace

variable {source : DataSource} {pace : Pace} {content : Content} {now : Nat} {moves : List Move}
  {s : Scene} {past : List Deed}

theorem hasLedger (h : (start source pace content now).trace? moves = some (s, past)) :
    s.agent.refresher.HasLedger 0 past :=
  hasLedger_trace? [] Ledger.start h

/-- The request in flight is the one that was issued and has neither completed nor been aborted. -/
theorem isOutstanding_iff (h : (start source pace content now).trace? moves = some (s, past))
    (generation : Nat) :
    IsOutstanding past generation ↔ s.agent.refresher.status.inFlight = true ∧
      generation = s.agent.refresher.status.generation :=
  (hasLedger h).isOutstanding_iff generation

theorem exists_isOutstanding_iff
    (h : (start source pace content now).trace? moves = some (s, past)) :
    (∃ g, IsOutstanding past g) ↔ s.agent.refresher.status.inFlight = true := by
  constructor
  · rintro ⟨g, hg⟩
    exact ((isOutstanding_iff h g).1 hg).1
  · intro hflight
    exact ⟨_, (isOutstanding_iff h _).2 ⟨hflight, rfl⟩⟩

/-- A running agent makes its status known as it is. -/
theorem published_eq (h : (start source pace content now).trace? moves = some (s, past))
    (running : s.agent.isRunning = true) :
    s.agent.refresher.published = s.agent.refresher.status :=
  running_induction (P := fun r => r.published = r.status) Refresher.published_does rfl h running

/-- The generation counts issues and aborts, the request in flight is the one outstanding, requests
end at most once and one at a time, and a reply to an aborted request changes nothing but that it is
taken up. -/
theorem inOrder_of_trace? (h : (start source pace content now).trace? moves = some (s, past)) :
    s.agent.refresher.status.generation = (issued past).length + (aborted past).length ∧
    (s.agent.isRunning = true → s.agent.refresher.published = s.agent.refresher.status) ∧
    (∀ g, IsOutstanding past g ↔ s.agent.refresher.status.inFlight = true ∧
      g = s.agent.refresher.status.generation) ∧
    InOrder past ∧
    ∀ response rest, s.agent.isRunning = true → s.agent.responses = response :: rest →
      response.generation ∈ aborted past →
      s.step? .receive = some ({ s with agent := { s.agent with responses := rest } }, []) := by
  have hledger := hasLedger h
  refine ⟨?_, published_eq h, hledger.isOutstanding_iff, hledger.inOrder, ?_⟩
  · have := hledger.generation_eq
    omega
  · intro response rest running hresponses haborted
    have hstale : s.agent.refresher.complete response.generation response.reply =
        (s.agent.refresher, []) := by
      rcases s.agent.refresher.complete_cases response.generation response.reply with
        ⟨hflight, hgeneration, -⟩ | ⟨-, hcomplete⟩
      · have hopen := (isOutstanding_iff h _).2 ⟨hflight, hgeneration⟩
        exact absurd haborted hopen.2.2
      · exact hcomplete
    simp [step?, act?, running, hresponses, Agent.receive, hstale, acted]

/-- A layer for which nothing is requested unless an area is included. -/
def fencedSource : DataSource := ⟨⟨"L", "wfs"⟩, .cqlText, true, true, .empty, {}⟩

/-- Its only entry includes its only area. -/
def fencedContent : Content :=
  (Content.empty.edit (.putArea ⟨"A", .polygon [], true⟩)).edit
    (.addEntry { Entry.ofLayer (.id "L") with area := some (.id "A") })

/-- The scene of that layer at the beginning. -/
abbrev fenced : Scene := start fencedSource {} fencedContent 0

/-- The included area is lost while the first request is in flight and comes back. The reply to that
request arrives when the next one is in flight. -/
theorem inOrder_of_trace?_of_late_reply :
    let moves := [.tell .refresh, .obey, .pass 250, .expire, .edit (.showArea "A" false), .hear,
      .pass 250, .expire, .edit (.showArea "A" true), .hear, .pass 250, .expire,
      .respond ⟨1, .body "late"⟩]
    ∃ s past, fenced.trace? moves = some (s, past) ∧
      issued past = [1, 3] ∧ aborted past = [1] ∧ s.agent.refresher.published.generation = 3 ∧
      InOrder past ∧ s.step? .receive =
        some ({ s with agent := { s.agent with responses := [] } }, []) := by
  intro moves
  have hevaluated : (fenced.trace? moves).any (fun r =>
      r.1.agent.isRunning && r.1.agent.responses == [⟨1, .body "late"⟩] &&
      issued r.2 == [1, 3] && aborted r.2 == [1] &&
      r.1.agent.refresher.published.generation == 3) = true := by
    simp only [moves]
    decide +kernel
  simp only [Option.any_eq_true, Prod.exists, Bool.and_eq_true, beq_iff_eq] at hevaluated
  obtain ⟨s, past, h, ⟨⟨⟨running, hresponses⟩, hissued⟩, haborted⟩, hgeneration⟩ := hevaluated
  obtain ⟨-, -, -, hinOrder, hignored⟩ := inOrder_of_trace? h
  refine ⟨s, past, h, hissued, haborted, hgeneration, hinOrder, ?_⟩
  exact hignored _ _ running hresponses (by simp [haborted])

end Scene
end MapQuery
