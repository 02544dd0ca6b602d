import MapQuery.Proofs.Schedule.Orderly

/-!
# An agent that is waited for

When a layer is removed its agent is told to stop, and nothing else happens until it has had its
turns. Commands come first in a turn, so that the request that the agent has in flight is aborted
before any reply to it is taken up.
-/

set_option autoImplicit false

namespace MapQuery

/-- Whether an agent has a request in flight, and its generation. -/
def Agent.flight (a : Agent) : Bool × Nat :=
  (a.refresher.status.inFlight, a.refresher.status.generation)

namespace Agent

variable {a b : Agent} {now : Nat} {c : Content} {flight : Bool × Nat} {p q : Prop}

/-- What has become of an agent that was told to stop while it had a flight: it still has to obey,
or it has stopped and what was in flight is aborted. -/
inductive Heeds (flight : Bool × Nat) (aborted : Prop) (b : Agent) : Prop
  | waits (running : b.isRunning = true) (hstop : .stop ∈ b.commands) (hflight : b.flight = flight)
  | stopped (hended : b.isRunning = false) (haborted : flight.1 = true → aborted)

theorem Heeds.imp (h : Heeds flight p b) (hpq : p → q) : Heeds flight q b := by
  cases h with
  | waits running hstop hflight => exact .waits running hstop hflight
  | stopped hended haborted => exact .stopped hended fun hflies => hpq (haborted hflies)

theorem Heeds.respond (h : Heeds flight p b) (response : Response) :
    Heeds flight p (b.respond response) := by
  cases h with
  | waits running hstop hflight =>
    refine .waits (b.isRunning_respond response ▸ running) (b.commands_respond response ▸ hstop) ?_
    simpa only [Agent.flight, refresher_respond] using hflight
  | stopped hended haborted => exact .stopped (b.isRunning_respond response ▸ hended) haborted

theorem heeds_obey (now : Nat) {command : Command} {rest : List Command}
    (running : a.isRunning = true) (hcommands : a.commands = command :: rest)
    (hstop : .stop ∈ a.commands) :
    Heeds a.flight (.abort a.flight.2 ∈ (obey now { a with commands := rest } command).2)
      (obey now { a with commands := rest } command).1 := by
  rw [hcommands] at hstop
  have hrest : command ≠ .stop → .stop ∈ rest := by
    intro hne
    exact (List.mem_cons.1 hstop).resolve_left (Ne.symm hne)
  cases command with
  | stop =>
    refine .stopped rfl fun hflies => ?_
    have hflies : a.refresher.status.inFlight = true := hflies
    simp [obey, stop, Refresher.abort, hflies, Agent.flight]
  | refresh => exact .waits running (hrest (by simp)) rfl
  | setWindow window => exact .waits running (hrest (by simp)) rfl
  | setVisible visible =>
    refine .waits running (hrest (by simp)) ?_
    simp only [obey, Agent.flight, Refresher.setVisible]
    split <;> rfl

theorem stepWithin_of_ended (hended : a.isRunning = false) (n : Nat) :
    (a.stepWithin now c n).1 = a ∧ (a.stepWithin now c n).2.1 = [] := by
  cases n with
  | zero => exact ⟨rfl, rfl⟩
  | succ n => simp [stepWithin, step?, hended]

/-- Until it has stopped an agent does nothing but obey. -/
theorem heeds_stepWithin (running : a.isRunning = true) (hstop : .stop ∈ a.commands) (n : Nat) :
    Heeds a.flight (.abort a.flight.2 ∈ (a.stepWithin now c n).2.1) (a.stepWithin now c n).1 := by
  induction n generalizing a with
  | zero => exact .waits running hstop rfl
  | succ n ih =>
    obtain ⟨command, rest, hcommands⟩ := List.exists_cons_of_ne_nil (List.ne_nil_of_mem hstop)
    have hstep : a.step? now c = some (obey now { a with commands := rest } command) := by
      simp [step?, running, hcommands]
    have hfirst := heeds_obey now running hcommands hstop
    simp only [stepWithin, hstep]
    generalize obey now { a with commands := rest } command = r at hfirst
    obtain ⟨b, effects⟩ := r
    dsimp only at hfirst ⊢
    cases hfirst with
    | waits hbrunning hbstop hflight =>
      rw [← hflight]
      exact (ih hbrunning hbstop).imp (List.mem_append_right _)
    | stopped hended haborted =>
      rw [(stepWithin_of_ended hended n).1]
      exact .stopped hended fun hflies => List.mem_append_left _ (haborted hflies)

end Agent

namespace Session

variable {s t u : Session} {place : Nat} {layerId : Text}

theorem lookup_detach (layerId : Text) (s : Session) :
    (s.detach layerId).attached.lookup layerId = none := by
  rw [List.lookup_eq_none_iff]
  intro l hl
  have hne : (l.1 != layerId) = true := (List.mem_filter.1 hl).2
  simpa [bne_comm] using hne

theorem log_told (place : Nat) (command : Command) (s : Session) :
    (s.told place command).log = s.log := by
  unfold told tellAgent
  split
  · rfl
  · split <;> rfl

theorem settleWithin_induction {P : Session → Prop}
    (hturns : ∀ {s : Session} (turns : Turns), P s → P { s with turns := turns })
    (htake : ∀ {s : Session} (t : Turn), P s → P (s.take t)) (n : Nat) (h : P s) :
    P (s.settleWithin n) := by
  induction n generalizing s with
  | zero => exact hturns _ h
  | succ n ih =>
    unfold settleWithin
    split
    · exact h
    · next t turns _ => exact ih (htake t (hturns turns h))

theorem exists_log_perform (place : Nat) (layerId : Text) (effects : List Effect) (s : Session) :
    ∃ notes, (s.perform place layerId effects).log = s.log ++ notes ∧
      ∀ g, .abort g ∈ effects → ⟨layerId, .abort g⟩ ∈ notes := by
  induction effects generalizing s with
  | nil => exact ⟨[], (List.append_nil _).symm, nofun⟩
  | cons e rest ih =>
    obtain ⟨notes, hnotes, haborts⟩ := ih (s.perform place layerId [e])
    cases e with
    | fetch generation params =>
      refine ⟨notes, hnotes, fun g hg => haborts g ?_⟩
      exact (List.mem_cons.1 hg).resolve_left nofun
    | abort generation =>
      refine ⟨_ :: notes, hnotes.trans (List.append_assoc _ _ _), fun g hg => ?_⟩
      rcases List.mem_cons.1 hg with hfirst | hrest
      · cases hfirst
        exact List.mem_cons_self
      · exact List.mem_cons_of_mem _ (haborts g hrest)
    | deliver | clear | failed =>
      refine ⟨_ :: notes, hnotes.trans (List.append_assoc _ _ _), fun g hg => ?_⟩
      exact List.mem_cons_of_mem _ (haborts g ((List.mem_cons.1 hg).resolve_left nofun))

theorem exists_runAgent {a : Agent} (ha : s.agents[place]? = some a) :
    ∃ notes, (s.runAgent place).log = s.log ++ notes ∧ (s.runAgent place).content = s.content ∧
      (s.runAgent place).agents = s.agents.set place (a.turn s.now s.content).1 ∧
      (a.turn s.now s.content).1.layerId = a.layerId ∧
      ∀ g, .abort g ∈ (a.turn s.now s.content).2.1 → ⟨a.layerId, .abort g⟩ ∈ notes := by
  obtain ⟨moves, past, hmoves⟩ := (s.scene a).exists_trace?_of_turn
  have hlayer : (a.turn s.now s.content).1.layerId = a.layerId := Scene.layerId_trace? hmoves
  have hagents := agents_perform place (a.turn s.now s.content).1.layerId
    (a.turn s.now s.content).2.1 { s with agents := s.agents.set place (a.turn s.now s.content).1 }
  obtain ⟨notes, hlog, haborts⟩ := exists_log_perform place (a.turn s.now s.content).1.layerId
    (a.turn s.now s.content).2.1 { s with agents := s.agents.set place (a.turn s.now s.content).1 }
  rw [hlayer] at haborts
  refine ⟨notes, ?_⟩
  simp only [runAgent, ha]
  split
  · exact ⟨hlog, hagents.2.content, hagents.1, hlayer, haborts⟩
  · split <;> exact ⟨hlog, hagents.2.content, hagents.1, hlayer, haborts⟩

/-- What has become of a session in which the agent at a place was told to stop. -/
structure Dismisses (place : Nat) (layerId : Text) (flight : Bool × Nat) (s u : Session) : Prop where
  content : u.content = s.content
  during : ∃ during b, u.log = s.log ++ during ∧ u.agents[place]? = some b ∧ b.layerId = layerId ∧
    b.Heeds flight (⟨layerId, .abort flight.2⟩ ∈ during)

variable {flight : Bool × Nat}

theorem Dismisses.runAgent (h : Dismisses place layerId flight s u) (other : Nat) :
    Dismisses place layerId flight s (u.runAgent other) := by
  obtain ⟨hcontent, during, b, hlog, hb, hlayer, hheeds⟩ := h
  cases ha : u.agents[other]? with
  | none =>
    have hnobody : u.runAgent other = u := by simp only [Session.runAgent, ha]
    rw [hnobody]
    exact ⟨hcontent, during, b, hlog, hb, hlayer, hheeds⟩
  | some a =>
    obtain ⟨notes, hnotes, hstage, hagents, hname, haborts⟩ := exists_runAgent ha
    refine ⟨hstage.trans hcontent, during ++ notes, ?_⟩
    rw [hnotes, hlog, List.append_assoc, hagents]
    -- a turn of another agent leaves this one alone
    by_cases hplace : other = place
    · subst hplace
      obtain rfl := Option.some.inj (ha.symm.trans hb)
      rw [List.getElem?_set_self (List.getElem?_eq_some_iff.1 ha).1]
      refine ⟨_, rfl, rfl, hname.trans hlayer, ?_⟩
      cases hheeds with
      | waits running hstop hflight =>
        subst hflight hlayer
        refine (Agent.heeds_stepWithin running hstop _).imp fun haborted => ?_
        exact List.mem_append_right _ (haborts _ haborted)
      | stopped hended haborted =>
        have hsame : (a.turn u.now u.content).1 = a := (Agent.stepWithin_of_ended hended _).1
        rw [hsame]
        exact .stopped hended fun hflies => List.mem_append_left _ (haborted hflies)
    · rw [List.getElem?_set_ne hplace]
      exact ⟨b, rfl, hb, hlayer, hheeds.imp (List.mem_append_left _)⟩

/-- A reply is left for an agent, or nothing happens to it. -/
theorem Dismisses.responded (h : Dismisses place layerId flight s u)
    (hcontent : t.content = u.content) (hlog : ∃ notes, t.log = u.log ++ notes)
    (hagent : t.agents[place]? = u.agents[place]? ∨
      ∃ response, t.agents[place]? = u.agents[place]?.map (Agent.respond response)) :
    Dismisses place layerId flight s t := by
  obtain ⟨hkept, during, b, hduring, hb, hlayer, hheeds⟩ := h
  obtain ⟨notes, hlog⟩ := hlog
  replace hheeds := hheeds.imp (List.mem_append_left notes)
  rw [hb] at hagent
  refine ⟨hcontent.trans hkept, during ++ notes, ?_⟩
  rw [hlog, hduring, List.append_assoc]
  rcases hagent with hsame | ⟨response, hresponded⟩
  · exact ⟨b, rfl, hsame, hlayer, hheeds⟩
  · refine ⟨b.respond response, rfl, hresponded, ?_, hheeds.respond response⟩
    rw [← hlayer]
    simp only [Agent.layerId, Agent.refresher_respond]

theorem Dismisses.bring (h : Dismisses place layerId flight s u) (other : Nat)
    (response : Response) : Dismisses place layerId flight s (u.bring other response) := by
  refine h.responded rfl ⟨[], (List.append_nil _).symm⟩ ?_
  rw [(agents_bring other response u).1, List.getElem?_modify]
  split
  · exact .inr ⟨response, rfl⟩
  · exact .inl (by cases u.agents[place]? <;> rfl)

theorem Dismisses.send (h : Dismisses place layerId flight s u) (other generation : Nat)
    (parameters : Parameters) :
    Dismisses place layerId flight s (u.send other generation parameters) := by
  unfold Session.send
  split
  · exact h
  · next a _ =>
    have hnoted (answers : List (Text × List Answer)) : Dismisses place layerId flight s
        (note a.layerId (.fetch generation parameters) { u with answers := answers }) :=
      h.responded rfl ⟨_, rfl⟩ (.inl rfl)
    dsimp only
    split
    · exact (hnoted _).bring _ _
    · exact (hnoted _).responded rfl ⟨[], (List.append_nil _).symm⟩ (.inl rfl)

theorem Dismisses.settle (h : Dismisses place layerId flight s u) :
    Dismisses place layerId flight s u.settle := by
  refine settleWithin_induction (fun turns h => ?_) (fun t h => ?_) _ h
  · exact h.responded rfl ⟨[], (List.append_nil _).symm⟩ (.inl rfl)
  · cases t with
    | agent other => exact h.runAgent other
    | request other generation parameters => exact h.send other generation parameters
    | reply other generation _ reply => exact h.bring other ⟨generation, reply⟩

/-- Every attached layer has an agent of its own, and nothing is in flight where an agent has
ended. -/
structure Housed (s : Session) : Prop where
  agent : ∀ layerId place, s.attached.lookup layerId = some place →
    ∃ a, s.agents[place]? = some a ∧ a.layerId = layerId
  idle : ∀ (place : Nat) (a : Agent), s.agents[place]? = some a → a.isRunning = false →
    a.flight.1 = false

theorem Housed.goesOn (h : s.Housed) (hgoesOn : s.GoesOn t) : t.Housed := by
  constructor
  · intro layerId place hplace
    rw [hgoesOn.attached] at hplace
    obtain ⟨a, ha, hlayer⟩ := h.agent layerId place hplace
    obtain ⟨deeds, hcontinues⟩ := hgoesOn.continues place
    obtain ⟨b, moves, hb, hmoves⟩ := hcontinues.forward ha
    exact ⟨b, hb, (Scene.layerId_trace? hmoves).trans hlayer⟩
  · intro place b hb
    obtain ⟨deeds, hcontinues⟩ := hgoesOn.continues place
    obtain ⟨a, moves, ha, hmoves⟩ := hcontinues.backward hb
    exact Scene.inFlight_trace? (h.idle place a ha) hmoves

theorem Housed.detached (h : s.Housed) (layerId : Text) : (s.detach layerId).Housed := by
  refine ⟨fun other place hplace => ?_, h.idle⟩
  by_cases hother : other = layerId
  · rw [hother, lookup_detach] at hplace
    cases hplace
  · exact h.agent other place ((lookup_detached hother).symm.trans hplace)

theorem Housed.attached (h : s.Housed) (source : DataSource) : (s.attach source).Housed := by
  have hspawned : ∀ (place : Nat) (a : Agent), s.agents[place]? = some a →
      (s.spawn source).1.agents[place]? = some a := by
    intro place a ha
    have hplace : place < s.agents.length := (List.getElem?_eq_some_iff.1 ha).1
    rw [getElem?_spawn_of_ne source hplace.ne, ha]
  constructor
  · intro layerId place hplace
    rw [attached_attach, List.lookup_cons] at hplace
    split at hplace
    · next hlayer =>
      obtain rfl := Option.some.inj hplace
      obtain ⟨b, moves, hb, hmoves⟩ :=
        (continues_attach s.agents.length source s).forward (getElem?_spawn source s)
      exact ⟨b, hb, (Scene.layerId_trace? hmoves).trans (eq_of_beq hlayer).symm⟩
    · next hlayer =>
      rw [lookup_detached (by simpa using hlayer)] at hplace
      obtain ⟨a, ha, hname⟩ := h.agent layerId place hplace
      obtain ⟨b, moves, hb, hmoves⟩ :=
        (continues_attach place source s).forward (hspawned place a ha)
      exact ⟨b, hb, (Scene.layerId_trace? hmoves).trans hname⟩
  · intro place b hb
    obtain ⟨a, moves, ha, hmoves⟩ := (continues_attach place source s).backward hb
    refine Scene.inFlight_trace? (fun hended => ?_) hmoves
    by_cases hplace : place = s.agents.length
    · subst hplace
      obtain rfl := Option.some.inj ((getElem?_spawn source s).symm.trans ha)
      cases hended
    · rw [getElem?_spawn_of_ne source hplace] at ha
      exact h.idle place a ha hended

theorem kept_housed : Kept Housed where
  goesOn := Housed.goesOn
  attach source _ h := h.attached source
  leave {_ layerId place} h _ := (h.detached layerId).goesOn (goesOn_told place .stop _)

theorem housed_start (pace : Pace) (content : Content) (answers : List (Text × List Answer)) :
    Housed { pace := pace, content := content, answers := answers } :=
  { agent := fun _ _ h => by cases h
    idle := fun _ _ h => by simp at h }

theorem attached_shutDownAgent (layerId : Text) (place : Nat) (s : Session) :
    ((s.detach layerId).shutDownAgent place).1.attached = (s.detach layerId).attached := by
  show ((s.detach layerId).stopAgent place).settle.attached = _
  rw [stopAgent_eq_told, (goesOn_settle _).attached]
  exact (sameStage_told place .stop _).attached

/-- When the agent of an attached layer has been waited for, it was told to stop and has obeyed. -/
theorem dismisses_shutDownAgent (h : s.Housed) (hplace : s.attached.lookup layerId = some place)
    {a : Agent} (ha : s.agents[place]? = some a) :
    Dismisses place layerId a.flight s ((s.detach layerId).shutDownAgent place).1 := by
  show Dismisses place layerId a.flight s ((s.detach layerId).stopAgent place).settle
  rw [stopAgent_eq_told]
  obtain ⟨b, hb, hlayer⟩ := h.agent layerId place hplace
  obtain rfl := Option.some.inj (hb.symm.trans ha)
  have hstage := sameStage_told place .stop (s.detach layerId)
  refine Dismisses.settle ⟨hstage.content, [], reach .stop b, ?_, ?_, ?_, ?_⟩
  · rw [log_told, List.append_nil]
    rfl
  · rw [getElem?_told]
    exact (congrArg _ hb).trans (by simp)
  · rw [← hlayer]
    unfold reach
    split <;> rfl
  · unfold reach
    cases running : b.isRunning with
    | true => exact .waits running (List.mem_append_right _ (List.mem_singleton.2 rfl)) rfl
    | false =>
      refine .stopped (by simpa using running) fun hflies => ?_
      rw [h.idle place b hb running] at hflies
      cases hflies

end Session
end MapQuery
