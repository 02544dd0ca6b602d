import MapQuery.Proofs.Schedule.Generations

/-!
# The end of an agent

An agent that has ended does nothing any more and has no request in flight. A command to stop waits
for it until then.
-/

set_option autoImplicit false

namespace MapQuery

/-- A refresher with a request in flight has a next state. -/
theorem Refresher.inFlight_of_expire_eq_none {now : Nat} {c : Content} {r : Refresher}
    (h : r.expire now c = none) : r.status.inFlight = false := by
  change (if r.status.inFlight && !r.failsClosed (r.resolution c) then some _
    else if !r.status.visible then some _
    else if r.failsClosed (r.resolution c) then some (r.disarmed.close (r.resolution c))
    else _) = none at h
  split at h
  · cases h
  · next hloading =>
    split at h
    · cases h
    · split at h
      · cases h
      · next hclosed => simpa [hclosed] using hloading

namespace Scene

variable {s t : Scene} {m : Move} {moves : List Move} {effects : List Effect} {past : List Deed}

theorem ended_step? (hended : s.agent.isRunning = false) (h : s.step? m = some (t, effects)) :
    t.agent.isRunning = false ∧ s.deeds m effects = [] := by
  constructor
  · cases hrunning : t.agent.isRunning with
    | false => rfl
    | true => rw [isRunning_of_step h hrunning] at hended; cases hended
  · cases m with
    | pass | edit | respond =>
      obtain ⟨-, rfl⟩ := Prod.mk.inj (Option.some.inj h)
      rfl
    | tell | obey | receive | recover | hear | expire => simp [step?, hended] at h

/-- An agent that has ended does nothing. -/
theorem ended_trace? (hended : s.agent.isRunning = false)
    (h : s.trace? moves = some (t, past)) : t.agent.isRunning = false ∧ past = [] :=
  trace?_induction (P := fun s past => s.agent.isRunning = false ∧ past = [])
    (fun hs hstep => by
      obtain ⟨hended, hdeeds⟩ := ended_step? hs.1 hstep
      exact ⟨hended, by rw [hs.2, hdeeds]; rfl⟩)
    [] ⟨hended, rfl⟩ h

theorem isRunning_of_trace? (h : s.trace? moves = some (t, past))
    (running : t.agent.isRunning = true) : s.agent.isRunning = true := by
  cases hended : s.agent.isRunning with
  | true => rfl
  | false =>
    rw [(ended_trace? hended h).1] at running
    cases running

theorem layerId_trace? (h : s.trace? moves = some (t, past)) :
    t.agent.layerId = s.agent.layerId := by
  have hsource := trace?_induction
    (P := fun t _ => t.agent.refresher.source = s.agent.refresher.source)
    (fun {u t m _ effects} hu hstep => by
      rcases changes_of_step? hstep with hdoes | ⟨-, hrefresher, -⟩
      · exact (Refresher.source_does hdoes).1.trans hu
      · rw [hrefresher]
        exact (Refresher.settings_abort _).1.trans hu)
    [] rfl h
  simp only [Agent.layerId, hsource]

theorem stop_mem_acts {now : Nat} {c : Content} {a : Agent} {r : Agent × List Effect}
    (hacts : Acts now c a r) (hstop : .stop ∈ a.commands) (running : r.1.isRunning = true) :
    .stop ∈ r.1.commands := by
  cases hacts with
  | obeyed command rest hcommands =>
    rw [hcommands] at hstop
    cases command with
    | stop => cases running
    | refresh | setVisible | setWindow => simpa [Agent.obey] using hstop
  | received | recovered | heard => exact hstop
  | expired =>
    unfold Agent.expire at running ⊢
    cases hexpire : a.refresher.expire now c with
    | some result => exact hstop
    | none => simp [hexpire, Agent.finish, Agent.isRunning] at running

/-- A command to stop waits until the agent ends. -/
theorem stop_mem_trace? (hstop : .stop ∈ s.agent.commands) (h : s.trace? moves = some (t, past))
    (running : t.agent.isRunning = true) : .stop ∈ t.agent.commands := by
  refine trace?_induction (P := fun s _ => s.agent.isRunning = true → .stop ∈ s.agent.commands)
    (fun {s t m _ effects} hs hstep running => ?_) [] (fun _ => hstop) h running
  have hstop := hs (isRunning_of_step hstep running)
  cases leads_of_step? hstep with
  | passed => exact hstop
  | edited e => rwa [← commands_edited s e] at hstop
  | told command => exact List.mem_append_left _ hstop
  | responded response =>
    show .stop ∈ (s.agent.respond response).commands
    rwa [Agent.commands_respond]
  | acted _ _ hacts => exact stop_mem_acts hacts hstop running

/-- An agent ends by obeying the command to stop, which aborts its request, or by a crash, for which
nothing may be in flight. -/
theorem inFlight_acts {now : Nat} {c : Content} {a : Agent} {r : Agent × List Effect}
    (hacts : Acts now c a r) (running : a.isRunning = true) (hended : r.1.isRunning = false) :
    r.1.refresher.status.inFlight = false := by
  cases hacts with
  | obeyed command rest =>
    cases command with
    | stop => exact Refresher.inFlight_abort a.refresher
    | refresh | setVisible | setWindow => cases running.symm.trans hended
  | received | recovered | heard => cases running.symm.trans hended
  | expired =>
    unfold Agent.expire at hended ⊢
    cases hexpire : a.refresher.expire now c with
    | none => exact Refresher.inFlight_of_expire_eq_none hexpire
    | some result =>
      rw [hexpire] at hended
      cases running.symm.trans hended

/-- No request is in flight where an agent has ended, if none was before. -/
theorem inFlight_trace?
    (hended : s.agent.isRunning = false → s.agent.refresher.status.inFlight = false)
    (h : s.trace? moves = some (t, past)) :
    t.agent.isRunning = false → t.agent.refresher.status.inFlight = false := by
  refine trace?_induction
    (P := fun s _ => s.agent.isRunning = false → s.agent.refresher.status.inFlight = false)
    (fun {s t m _ effects} hs hstep hended => ?_) [] hended h
  cases leads_of_step? hstep with
  | passed => exact hs hended
  | edited e =>
    rw [refresher_edited]
    exact hs ((isRunning_edited s e).symm.trans hended)
  | told command running => cases running.symm.trans hended
  | responded response =>
    show (s.agent.respond response).refresher.status.inFlight = false
    rw [Agent.refresher_respond]
    exact hs ((Agent.isRunning_respond response s.agent).symm.trans hended)
  | acted running _ hacts => exact inFlight_acts hacts running hended

/-- An agent that has ended has no request in flight. -/
theorem inFlight_of_ended {source : DataSource} {pace : Pace} {content : Content} {now : Nat}
    (h : (start source pace content now).trace? moves = some (s, past))
    (hended : s.agent.isRunning = false) : s.agent.refresher.status.inFlight = false :=
  inFlight_trace? (fun hstart => by cases hstart) h hended

end Scene
end MapQuery
