import MapQuery.Proofs.Schedule.Currency
import MapQuery.Proofs.Schedule.PendingWindow

/-!
# Agents at rest

Every move keeps a running agent's layer covered, so that an agent which has nothing left to do
shows what the content and the time window call for.
-/

set_option autoImplicit false

namespace MapQuery

namespace Scene

/-- What every move keeps: the agent makes itself known as it is, and while it runs its layer is
covered. -/
structure IsKept (s : Scene) (done : List Effect) : Prop where
  faithful : s.agent.refresher.Faithful
  covered : s.agent.isRunning = true → s.agent.IsCovered s.content done

theorem faithful_acts {now : Nat} {c : Content} {a : Agent} {r : Agent × List Effect}
    (h : a.refresher.Faithful) (hr : Acts now c a r) : r.1.refresher.Faithful := by
  cases hr with
  | obeyed command =>
    cases command with
    | refresh => exact h.schedule now
    | setVisible visible => exact h.setVisible now visible
    | setWindow => exact Refresher.faithful_publish h.installed
    | stop => exact h.abort
  | received response => exact h.complete response.generation response.reply
  | recovered => exact h.schedule now
  | heard change =>
    show (Refresher.hear now c change a.refresher).Faithful
    unfold Refresher.hear
    split
    · exact h.schedule now
    · exact h
  | expired =>
    unfold Agent.expire
    split
    · next result effects hexpire => exact h.expire hexpire
    · exact h

theorem isCovered_acts {now : Nat} {c : Content} {a : Agent} {r : Agent × List Effect}
    {done : List Effect} (hfaithful : a.refresher.Faithful) (h : a.IsCovered c done)
    (hr : Acts now c a r) (running : r.1.isRunning = true) : r.1.IsCovered c (done ++ r.2) := by
  cases hr with
  | obeyed command rest =>
    exact Agent.IsCovered.obey (a := { a with commands := rest }) (h.congr rfl rfl rfl) now running
  | received response rest =>
    exact Agent.IsCovered.receive (a := { a with responses := rest }) (h.congr rfl rfl rfl)
      hfaithful response
  | recovered => exact .armed rfl
  | heard change rest hunread hlagged =>
    rw [List.append_nil]
    exact h.hear hunread hlagged now
  | expired => exact Agent.isCovered_expire hfaithful now done running

theorem faithful_step {s : Scene} {m : Move} {r : Scene × List Effect}
    (h : s.agent.refresher.Faithful) (hstep : s.step? m = some r) :
    r.1.agent.refresher.Faithful := by
  cases leads_of_step? hstep with
  | passed | told => exact h
  | edited e =>
    show (s.edited e).agent.refresher.Faithful
    rwa [refresher_edited]
  | responded response =>
    show (s.agent.respond response).refresher.Faithful
    rwa [Agent.refresher_respond]
  | acted _ _ hacts => exact faithful_acts h hacts

theorem IsKept.step {s : Scene} {m : Move} {done : List Effect} {r : Scene × List Effect}
    (h : s.IsKept done) (hstep : s.step? m = some r) : r.1.IsKept (done ++ r.2) := by
  refine ⟨faithful_step h.faithful hstep, ?_⟩
  intro running
  cases leads_of_step? hstep with
  | passed =>
    rw [List.append_nil]
    exact h.covered running
  | edited e =>
    rw [List.append_nil]
    unfold edited at running ⊢
    cases hannounced : s.content.announced e with
    | none =>
      simp only [hannounced] at running ⊢
      rw [Content.edit_eq_self hannounced]
      exact h.covered running
    | some change =>
      simp only [hannounced, Agent.isRunning_announce] at running ⊢
      exact (h.covered running).announce running hannounced
  | told command =>
    rw [List.append_nil]
    exact (h.covered running).congr rfl rfl rfl
  | responded response =>
    rw [List.append_nil]
    have hrunning : s.agent.isRunning = true :=
      (Agent.isRunning_respond response s.agent).symm.trans running
    show Agent.IsCovered (s.agent.respond response) _ _
    rw [Agent.respond_of_running hrunning]
    exact (h.covered hrunning).congr rfl rfl rfl
  | acted hrunning _ hacts => exact isCovered_acts h.faithful (h.covered hrunning) hacts running

theorem faithful_run {s t : Scene} {moves : List Move} {effects : List Effect}
    (h : s.agent.refresher.Faithful) (hrun : s.run? moves = some (t, effects)) :
    t.agent.refresher.Faithful := by
  apply run?_induction (P := fun s _ => s.agent.refresher.Faithful) _ [] h hrun
  intro s m done r hs hstep
  exact faithful_step hs hstep

/-- Once a refresh has been scheduled, the debounce window being armed at some moment of the run, a
running agent whose layer is visible, with no window armed and nothing left to obey or to hear of,
is current: its last action is the one that the content and the time window asked for last call
for. -/
theorem isCurrent_of_quiet {source : DataSource} {pace : Pace} {content : Content} {now : Nat}
    {before after : List Move} {s t : Scene} {first more : List Effect}
    (hbefore : (start source pace content now).run? before = some (s, first))
    (scheduled : s.agent.refresher.deadline.isSome = true)
    (hafter : s.run? after = some (t, more)) (running : t.agent.isRunning = true)
    (visible : t.agent.refresher.published.visible = true)
    (disarmed : t.agent.refresher.deadline = none) (obeyed : t.agent.commands = [])
    (heard : t.agent.unread = []) (caughtUp : t.agent.lagged = false) :
    t.agent.refresher.window = toldWindow (before ++ after) ∧
      t.agent.refresher.IsCurrent t.content (lastAction? (first ++ more)) := by
  constructor
  · have hwindow := (pendingWindow_run (run?_append hbefore hafter) running).2
    rw [Agent.pendingWindow, obeyed] at hwindow
    exact hwindow
  · have hfaithful : s.agent.refresher.Faithful :=
      faithful_run (Refresher.faithful_start source pace) hbefore
    have hkept : t.IsKept (first ++ more) :=
      run?_induction (P := IsKept) (fun h hstep => h.step hstep) first
        ⟨hfaithful, fun _ => .armed scheduled⟩ hafter
    -- Of the reasons why the layer is covered only the last one is left.
    cases hkept.covered running with
    | armed h => simp [disarmed] at h
    | hidden h =>
      rw [← hkept.faithful.visible, visible] at h
      cases h
    | lagged h =>
      rw [caughtUp] at h
      cases h
    | unheard change hchange => simp [heard] at hchange
    | current h => exact h

/-- The filter of a layer is disabled, then taken out, and then the entry that referred to it, all
this while a request is in flight, which is answered only after the window was armed again. -/
theorem isCurrent_of_quiet_after_lost_reference :
    let entry : Entry := { Entry.ofLayer (.id "L") with filter := some (.id "F") }
    let content := Content.empty.editAll [
      .putFilter ⟨"F", "", "", "wfs", true, false, .ok ⟨[]⟩⟩, .addEntry entry]
    let source : DataSource := ⟨⟨"L", "wfs"⟩, .cqlText, false, true, .empty, {}⟩
    let before := [.edit (.enableFilter "F" false), .hear]
    let after := [.pass 250, .expire, .edit (.dropFilter "F"), .edit (.dropEntry entry), .hear,
      .hear, .pass 250, .expire, .respond ⟨1, .body "late"⟩, .receive, .pass 250, .expire]
    ∃ s first t more, (start source {} content 0).run? before = some (s, first) ∧
      s.run? after = some (t, more) ∧ t.agent.refresher.deadline = none ∧
      lastAction? (first ++ more) = some (.fetch 2 .empty) ∧
      t.agent.refresher.IsCurrent t.content (lastAction? (first ++ more)) := by
  intro entry content source before after
  have hevaluated : ((start source {} content 0).run? before).any (fun r =>
      r.1.agent.refresher.deadline.isSome && (r.1.run? after).any fun r' =>
        r'.1.agent.isRunning && r'.1.agent.refresher.published.visible &&
        r'.1.agent.refresher.deadline.isNone && r'.1.agent.commands.isEmpty &&
        r'.1.agent.unread.isEmpty && !r'.1.agent.lagged &&
        lastAction? (r.2 ++ r'.2) == some (.fetch 2 .empty)) = true := by
    simp only [before, after, source, content, entry]
    decide +kernel
  simp only [Option.any_eq_true, Prod.exists, Bool.and_eq_true, List.isEmpty_iff,
    Option.isNone_iff_eq_none, Bool.not_eq_true', beq_iff_eq] at hevaluated
  obtain ⟨s, first, hbefore, scheduled, t, more, hafter, ⟨⟨⟨⟨⟨running, visible⟩, disarmed⟩, obeyed⟩,
    heard⟩, caughtUp⟩, hlast⟩ := hevaluated
  exact ⟨s, first, t, more, hbefore, hafter, disarmed, hlast, (isCurrent_of_quiet hbefore scheduled
    hafter running visible disarmed obeyed heard caughtUp).2⟩

end Scene
end MapQuery
