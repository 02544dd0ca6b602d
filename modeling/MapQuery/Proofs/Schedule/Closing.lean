import MapQuery.Proofs.Schedule.Generations

/-!
# Layers without the area that they need

When a debounce window runs out and no area is included though one has to be, nothing is requested,
and what is made known from then on is of requests issued after that. A hidden layer whose request
is in flight then is the exception: the reply to that request still counts.
-/

set_option autoImplicit false

namespace MapQuery

open Deed

namespace Refresher

variable {now : Nat} {c : Content} {r : Refresher} {result : Refresher × List Effect}

/-- There is a next state: the results of a visible layer are dropped, the refresh of a hidden one
is put off. -/
theorem expire_of_failsClosed (h : r.failsClosed (r.resolution c) = true) :
    r.expire now c = some (if r.status.visible then r.disarmed.close (r.resolution c)
      else (publish { r.disarmed with
        status := { r.status with phase := .idle, refreshOnVisible := true } }, [])) := by
  show (if r.status.inFlight && !r.failsClosed (r.resolution c) then _
    else if !r.status.visible then _
    else if r.failsClosed (r.resolution c) then some (r.disarmed.close (r.resolution c))
    else _) = _
  rw [h, Bool.not_true, Bool.and_false]
  cases r.status.visible <;> rfl

theorem effects_of_failsClosed (h : r.failsClosed (r.resolution c) = true)
    (hexpiry : Expiry now c r result) :
    issued (result.2.map .did) = [] ∧ reported (result.2.map .did) = [] := by
  cases hexpiry with
  | rearmed | postponed => exact ⟨rfl, rfl⟩
  | closed =>
    simp only [close, abort]
    split <;> exact ⟨rfl, rfl⟩
  | issued _ _ _ hopen => exact absurd h (by simp [hopen])

theorem inFlight_of_failsClosed (h : r.failsClosed (r.resolution c) = true)
    (hseen : r.status.visible = true ∨ r.status.inFlight = false)
    (hexpiry : Expiry now c r result) : result.1.status.inFlight = false := by
  cases hexpiry with
  | rearmed _ hopen | issued _ _ _ hopen => exact absurd h (by simp [hopen])
  | closed => exact inFlight_abort r.disarmed
  | postponed hhidden =>
    rcases hseen with hvisible | hidle
    · exact absurd hvisible (by simp [hhidden])
    · exact hidle

end Refresher

namespace Scene

variable {source : DataSource} {pace : Pace} {content : Content} {now : Nat}
  {moves later : List Move} {s t u : Scene} {past future : List Deed} {effects : List Effect}

theorem expiry_of_failsClosed
    (hclosed : s.agent.refresher.failsClosed (s.agent.refresher.resolution s.content) = true)
    (h : s.step? .expire = some (t, effects)) :
    s.agent.isRunning = true ∧
      Refresher.Expiry s.now s.content s.agent.refresher (t.agent.refresher, effects) := by
  simp only [step?, act?] at h
  split at h
  · next running =>
    split at h
    · obtain ⟨rfl, rfl⟩ := Prod.mk.inj (Option.some.inj h)
      have hexpire : s.agent.refresher.expire s.now s.content = some _ :=
        Refresher.expire_of_failsClosed hclosed
      simp only [Agent.expire, hexpire]
      exact ⟨running, Refresher.expiry_of_expire hexpire⟩
    · cases h
  · cases h

/-- After a window has run out without the area that has to be included, a result or a failure is
made known only of a request that was issued after that and has completed, provided that the layer
was visible at that moment or no request was outstanding. At that moment nothing is issued or made
known. -/
theorem isCompleted_of_reported_after_loss
    (h : (start source pace content now).trace? moves = some (s, past))
    (required : source.spatialRequired = true)
    (lost : (s.content.resolve source.layer).included = [])
    (hexpire : s.step? .expire = some (t, effects))
    (hlater : t.trace? later = some (u, future)) :
    issued (effects.map .did) = [] ∧ reported (effects.map .did) = [] ∧
    (s.agent.refresher.published.visible = true ∨ (¬ ∃ g, IsOutstanding past g) →
      ∀ before d g, before ++ [d] <+: future → d.reported? = some g → IsCompleted before g) := by
  obtain ⟨hsource, -⟩ := source_trace? h
  have hclosed : s.agent.refresher.failsClosed (s.agent.refresher.resolution s.content) = true := by
    simp [Refresher.failsClosed, Refresher.resolution, hsource, required, lost]
  obtain ⟨running, hexpiry⟩ := expiry_of_failsClosed hclosed hexpire
  obtain ⟨hissued, hreported⟩ := Refresher.effects_of_failsClosed hclosed hexpiry
  refine ⟨hissued, hreported, ?_⟩
  intro hseen before d g hbefore hreport
  rw [published_eq h running, exists_isOutstanding_iff h, Bool.not_eq_true] at hseen
  have hnone : t.agent.refresher.status.inFlight = false :=
    Refresher.inFlight_of_failsClosed hclosed hseen hexpiry
  -- With nothing in flight the deeds from here on are a ledger of their own.
  have hfresh : t.agent.refresher.HasLedger t.agent.refresher.status.generation [] := by
    rw [Refresher.HasLedger, hnone]
    exact .start
  have hledger := hasLedger_trace? [] hfresh hlater
  obtain ⟨earlier, reply, rfl, hopen⟩ := hledger.exists_of_report hbefore hreport
  exact ⟨earlier, reply, List.prefix_rfl, hopen.1, hopen.2.2⟩

/-- The area of a visible layer is lost while a request is in flight. The late reply comes to
nothing; once the area is back, the next request is answered. -/
theorem isCompleted_of_reported_after_loss_of_late_reply :
    let moves := [.tell .refresh, .obey, .pass 250, .expire, .edit (.showArea "A" false), .hear,
      .pass 250]
    let later := [.respond ⟨1, .body "late"⟩, .receive, .edit (.showArea "A" true), .hear,
      .pass 250, .expire, .respond ⟨3, .body "new"⟩, .receive]
    ∃ s past t effects u future, fenced.trace? moves = some (s, past) ∧
      s.step? .expire = some (t, effects) ∧ effects = [.abort 1, .clear] ∧
      t.trace? later = some (u, future) ∧ reported future = [3] ∧
      ∀ before d g, before ++ [d] <+: future → d.reported? = some g → IsCompleted before g := by
  intro moves later
  have hevaluated : (fenced.trace? moves).any (fun r =>
      (r.1.content.resolve fencedSource.layer).included.isEmpty &&
      r.1.agent.refresher.published.visible && (r.1.step? .expire).any fun r' =>
        r'.2 == [.abort 1, .clear] && (r'.1.trace? later).any fun r'' =>
          reported r''.2 == [3]) = true := by
    simp only [moves, later]
    decide +kernel
  simp only [Option.any_eq_true, Prod.exists, Bool.and_eq_true, beq_iff_eq,
    List.isEmpty_iff] at hevaluated
  obtain ⟨s, past, h, ⟨lost, visible⟩, t, effects, hexpire, heffects, u, future, hlater,
    hreported⟩ := hevaluated
  refine ⟨s, past, t, effects, u, future, h, hexpire, heffects, hlater, hreported, ?_⟩
  exact (isCompleted_of_reported_after_loss h rfl lost hexpire hlater).2.2 (.inl visible)

/-- The layer is hidden while a request is in flight, and then the area is lost. The late reply is
delivered all the same. -/
theorem delivered_after_loss :
    let moves := [.tell .refresh, .obey, .pass 250, .expire, .tell (.setVisible false), .obey,
      .edit (.showArea "A" false), .hear, .pass 250]
    ∃ s past t effects u, fenced.trace? moves = some (s, past) ∧
      (s.content.resolve fencedSource.layer).included = [] ∧
      s.step? .expire = some (t, effects) ∧
      t.trace? [.respond ⟨1, .body "late"⟩, .receive] =
        some (u, [.took ⟨1, .body "late"⟩, .did (.deliver 1 "late")]) ∧
      ¬ IsCompleted [.took ⟨1, .body "late"⟩] 1 := by
  intro moves
  have hevaluated : (fenced.trace? moves).any (fun r =>
      (r.1.content.resolve fencedSource.layer).included.isEmpty &&
      (r.1.step? .expire).any fun r' =>
        (r'.1.trace? [.respond ⟨1, .body "late"⟩, .receive]).any fun r'' =>
          r''.2 == [.took ⟨1, .body "late"⟩, .did (.deliver 1 "late")]) = true := by
    simp only [moves]
    decide +kernel
  simp only [Option.any_eq_true, Prod.exists, Bool.and_eq_true, beq_iff_eq,
    List.isEmpty_iff] at hevaluated
  obtain ⟨s, past, h, lost, t, effects, hexpire, u, future, hlater, rfl⟩ := hevaluated
  refine ⟨s, past, t, effects, u, h, lost, hexpire, hlater, ?_⟩
  intro hcompleted
  cases hcompleted.mem_issued

end Scene
end MapQuery
