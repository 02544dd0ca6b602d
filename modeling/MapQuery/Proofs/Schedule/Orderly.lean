import MapQuery.Proofs.Schedule.Ending
import MapQuery.Proofs.Schedule.Stories

/-!
# Agents that have been told to stop

A session tells an agent to stop when it starts another one for the layer or gives the layer up. So
every agent that still runs either keeps an attached layer up or has been told to stop, whatever the
session is told and in whatever order its agents act.
-/

set_option autoImplicit false

namespace MapQuery

/-! ## Sessions that go on without attaching or detaching a layer -/

namespace Session

/-- The same layers are attached, and each agent goes on by a run of its scene. -/
structure GoesOn (s t : Session) : Prop where
  attached : t.attached = s.attached
  continues : ∀ place, ∃ deeds, Continues place s t deeds

variable {s t u : Session} {place : Nat} {layerId : Text}

theorem GoesOn.trans (h : s.GoesOn t) (h' : t.GoesOn u) : s.GoesOn u := by
  refine ⟨h'.attached.trans h.attached, fun place => ?_⟩
  obtain ⟨deeds, hdeeds⟩ := h.continues place
  obtain ⟨later, hlater⟩ := h'.continues place
  exact ⟨deeds ++ later, hdeeds.trans hlater⟩

theorem SameStage.goesOn (h : s.SameStage t) (hagents : t.agents = s.agents) : s.GoesOn t :=
  ⟨h.attached, fun _ => ⟨[], h.continues (by rw [hagents])⟩⟩

theorem GoesOn.refl (s : Session) : s.GoesOn s := SameStage.goesOn ⟨rfl, rfl, rfl, rfl⟩ rfl

theorem GoesOn.turns (h : s.GoesOn t) (turns : Turns) : s.GoesOn { t with turns := turns } :=
  h.trans (SameStage.goesOn ⟨rfl, rfl, rfl, rfl⟩ rfl)

theorem goesOn_pass (milliseconds : Nat) (s : Session) :
    s.GoesOn { s with now := s.now + milliseconds } :=
  ⟨rfl, fun place => ⟨[], continues_pass place milliseconds s⟩⟩

theorem goesOn_edit (e : Edit) (s : Session) : s.GoesOn (s.edit e) :=
  ⟨(s.stage_edit e).2.2.2, fun place => ⟨[], continues_edit place e s⟩⟩

theorem goesOn_told (place : Nat) (command : Command) (s : Session) :
    s.GoesOn (s.told place command) :=
  ⟨(sameStage_told place command s).attached, fun other =>
    ⟨[], continues_told other place command s⟩⟩

theorem goesOn_note (layerId : Text) (effect : Effect) (s : Session) :
    s.GoesOn (s.note layerId effect) :=
  SameStage.goesOn ⟨rfl, rfl, rfl, rfl⟩ rfl

theorem goesOn_remove (layerId : Text) (a : Agent) (s : Session) :
    s.GoesOn (s.remove layerId a) := by
  unfold remove
  split
  · exact .refl s
  · exact (goesOn_note layerId .clear s).trans (goesOn_edit _ _)

theorem goesOn_bring (place : Nat) (response : Response) (s : Session) :
    s.GoesOn (s.bring place response) :=
  ⟨rfl, fun other => ⟨[], continues_bring other place response s⟩⟩

theorem goesOn_set {a b : Agent} {moves : List Move} {deeds : List Deed}
    (ha : s.agents[place]? = some a)
    (hmoves : (s.scene a).trace? moves = some (s.scene b, deeds)) (hstage : s.SameStage t)
    (hagents : t.agents = s.agents.set place b) : s.GoesOn t := by
  obtain ⟨hown, hothers⟩ := continues_set ha hmoves hstage hagents
  refine ⟨hstage.attached, fun other => ?_⟩
  by_cases hplace : other = place
  · rw [hplace]
    exact ⟨deeds, hown⟩
  · exact ⟨[], hothers other hplace⟩

theorem goesOn_act? {m : Move} {r : Session × List Deed} (h : s.act? place m = some r) :
    s.GoesOn r.1 := by
  obtain ⟨a, b, effects, ha, running, hact, hagents, hstage, -⟩ := act?_cases h
  have hstep := Scene.step?_of_act? (s := s.scene a) running hact
  exact goesOn_set ha (Scene.trace?_single hstep) hstage hagents

/-! What a session does by itself -/

theorem goesOn_runAgent (place : Nat) (s : Session) : s.GoesOn (s.runAgent place) := by
  unfold runAgent
  cases ha : s.agents[place]? with
  | none => exact .refl s
  | some a =>
    obtain ⟨moves, past, hmoves⟩ := (s.scene a).exists_trace?_of_turn
    obtain ⟨hagents, hstage⟩ := agents_perform place (a.turn s.now s.content).1.layerId
      (a.turn s.now s.content).2.1 { s with agents := s.agents.set place (a.turn s.now s.content).1 }
    have hperformed := goesOn_set ha hmoves
      ⟨hstage.pace, hstage.now, hstage.content, hstage.attached⟩ hagents
    dsimp only
    split
    · exact hperformed
    · split <;> exact hperformed.turns _

theorem goesOn_send (place generation : Nat) (parameters : Parameters) (s : Session) :
    s.GoesOn (s.send place generation parameters) := by
  unfold send
  split
  · exact .refl s
  · next a _ =>
    have hnoted (answers : List (Text × List Answer)) :
        s.GoesOn (note a.layerId (.fetch generation parameters) { s with answers := answers }) :=
      SameStage.goesOn ⟨rfl, rfl, rfl, rfl⟩ rfl
    dsimp only
    split
    · exact (hnoted _).trans (goesOn_bring _ _ _)
    · exact (hnoted _).turns _

theorem goesOn_take (t : Turn) (s : Session) : s.GoesOn (s.take t) := by
  cases t with
  | agent place => exact goesOn_runAgent place s
  | request place generation parameters => exact goesOn_send place generation parameters s
  | reply place generation _ reply => exact goesOn_bring place ⟨generation, reply⟩ s

theorem goesOn_settleWithin (n : Nat) (s : Session) : s.GoesOn (s.settleWithin n) := by
  induction n generalizing s with
  | zero => exact (GoesOn.refl s).turns _
  | succ n ih =>
    unfold settleWithin
    split
    · exact .refl s
    · next t turns _ =>
      exact ((GoesOn.refl s).turns turns).trans ((goesOn_take t _).trans (ih _))

theorem goesOn_settle (s : Session) : s.GoesOn s.settle := goesOn_settleWithin _ s

theorem now_take (t : Turn) (s : Session) : (s.take t).now = s.now := by
  cases t with
  | agent place =>
    show (s.runAgent place).now = s.now
    unfold runAgent
    cases ha : s.agents[place]? with
    | none => rfl
    | some a =>
      have hnow := (agents_perform place (a.turn s.now s.content).1.layerId
        (a.turn s.now s.content).2.1
        { s with agents := s.agents.set place (a.turn s.now s.content).1 }).2.now
      dsimp only
      split
      · exact hnow
      · split <;> exact hnow
  | request place generation parameters =>
    show (s.send place generation parameters).now = s.now
    unfold send
    split
    · rfl
    · dsimp only
      split <;> rfl
  | reply => rfl

theorem now_settle (s : Session) : s.settle.now = s.now := by
  unfold settle
  generalize s.enoughTurns = n
  induction n generalizing s with
  | zero => rfl
  | succ n ih =>
    unfold settleWithin
    split
    · rfl
    · exact (ih _).trans (now_take _ _)

theorem lt_of_nextTime? {time : Nat} (h : s.nextTime? = some time) : s.now < time := by
  have hmem := List.min?_mem h
  simpa using (List.mem_filter.1 hmem).2

theorem goesOn_clock {time : Nat} (h : s.now ≤ time) :
    s.GoesOn (settle { s with now := time }) := by
  have hpass := goesOn_pass (time - s.now) s
  rw [Nat.add_sub_cancel' h] at hpass
  exact hpass.trans (goesOn_settle _)

theorem goesOn_advanceWithin (fuel : Nat) {target : Nat} (h : s.now ≤ target) :
    s.GoesOn (s.advanceWithin fuel target) := by
  induction fuel generalizing s with
  | zero => exact goesOn_clock h
  | succ fuel ih =>
    unfold advanceWithin
    cases hnext : s.nextTime? with
    | none => exact goesOn_clock h
    | some time =>
      have htime := goesOn_clock (lt_of_nextTime? hnext).le
      dsimp only
      split
      · next hle =>
        refine htime.trans (ih ?_)
        rw [now_settle]
        exact hle
      · exact goesOn_clock h

theorem goesOn_advance (milliseconds : Nat) (s : Session) : s.GoesOn (s.advance milliseconds) := by
  refine (goesOn_settle s).trans (goesOn_advanceWithin milliseconds ?_)
  rw [now_settle]
  exact Nat.le_add_right _ _

/-! ## Sessions in order -/

/-- Every running agent keeps an attached layer up or has been told to stop. -/
def Orderly (s : Session) : Prop :=
  ∀ place a, s.agents[place]? = some a → a.isRunning = true →
    s.attached.lookup a.layerId = some place ∨ .stop ∈ a.commands

theorem Orderly.goesOn (h : s.Orderly) (hgoesOn : s.GoesOn t) : t.Orderly := by
  intro place b hb running
  obtain ⟨deeds, hplace⟩ := hgoesOn.continues place
  obtain ⟨a, moves, ha, hmoves⟩ := hplace.backward hb
  have hrunning : a.isRunning = true := Scene.isRunning_of_trace? hmoves running
  have hlayer : b.layerId = a.layerId := Scene.layerId_trace? hmoves
  rw [hlayer, hgoesOn.attached]
  exact (h place a ha hrunning).imp_right fun hstop => Scene.stop_mem_trace? hstop hmoves running

/-- Of the running agents of a layer all but one have been told to stop. -/
theorem Orderly.eq_of_running (h : s.Orderly) {p q : Nat} {a b : Agent}
    (ha : s.agents[p]? = some a) (hb : s.agents[q]? = some b) (harunning : a.isRunning = true)
    (hbrunning : b.isRunning = true) (hlayer : a.layerId = b.layerId)
    (hastop : .stop ∉ a.commands) (hbstop : .stop ∉ b.commands) : p = q := by
  have hp := (h p a ha harunning).resolve_right hastop
  have hq := (h q b hb hbrunning).resolve_right hbstop
  rw [hlayer, hq] at hp
  exact (Option.some.inj hp).symm

/-- The agent that a layer had is told to stop, whoever keeps the layer up from then on. -/
theorem Orderly.dismissed (h : s.Orderly) (layerId : Text)
    (hagent : t.agents[place]? = s.agents[place]?.map fun a =>
      if s.attached.lookup layerId = some place then reach .stop a else a)
    (hattached : ∀ other, other ≠ layerId → t.attached.lookup other = s.attached.lookup other)
    {b : Agent} (hb : t.agents[place]? = some b) (running : b.isRunning = true) :
    t.attached.lookup b.layerId = some place ∨ .stop ∈ b.commands := by
  rw [hagent] at hb
  obtain ⟨a, ha, rfl⟩ := Option.map_eq_some_iff.1 hb
  by_cases hkept : s.attached.lookup layerId = some place
  · rw [if_pos hkept] at running ⊢
    right
    cases hrunning : a.isRunning with
    | true => simp [reach, hrunning, Agent.tell]
    | false => simp [reach, hrunning] at running
  · rw [if_neg hkept] at running ⊢
    refine (h place a ha running).imp_left fun hown => ?_
    have hother : a.layerId ≠ layerId := by
      rintro rfl
      exact hkept hown
    rw [hattached _ hother, hown]

theorem lookup_detached {attached : List (Text × Nat)} {other : Text} (h : other ≠ layerId) :
    (attached.filter fun l => l.1 != layerId).lookup other = attached.lookup other := by
  induction attached with
  | nil => rfl
  | cons l rest ih =>
    obtain ⟨own, place⟩ := l
    by_cases hown : own = layerId
    · have hne : (other == own) = false := by simpa [hown] using h
      rw [List.filter_cons_of_neg (by simpa using hown), ih, List.lookup_cons, hne]
    · rw [List.filter_cons_of_pos (by simpa using hown), List.lookup_cons, List.lookup_cons, ih]

theorem orderly_leave (h : s.Orderly) (hplace : s.attached.lookup layerId = some place) :
    ((s.detach layerId).told place .stop).Orderly := by
  intro other b hb running
  refine h.dismissed layerId ?_ (fun layer hlayer => ?_) hb running
  · rw [getElem?_told, hplace]
    simp only [Option.some.injEq]
    rfl
  · rw [(sameStage_told place .stop (s.detach layerId)).attached]
    exact lookup_detached hlayer

theorem attached_attach (source : DataSource) (s : Session) :
    (s.attach source).attached = (source.layer.id, s.agents.length) ::
      s.attached.filter fun l => l.1 != source.layer.id := by
  have hinstalled : (s.installed source).attached = (source.layer.id, s.agents.length) ::
      s.attached.filter fun l => l.1 != source.layer.id := by
    have hspawn := (sameStage_told s.agents.length .refresh (s.spawn source).1).attached
    simp only [installed, detach, hspawn]
    rfl
  rw [attach_eq]
  cases s.attached.lookup source.layer.id with
  | none => exact hinstalled
  | some previous => exact (sameStage_told previous .stop _).attached.trans hinstalled

theorem getElem?_attach (source : DataSource) (hplace : place ≠ s.agents.length) :
    (s.attach source).agents[place]? = s.agents[place]?.map fun a =>
      if s.attached.lookup source.layer.id = some place then reach .stop a else a := by
  have hinstalled : (s.installed source).agents[place]? = s.agents[place]? := by
    have hspawn := getElem?_told place s.agents.length .refresh (s.spawn source).1
    simp only [hplace.symm, if_false, Option.map_id_fun'] at hspawn
    exact hspawn.trans (getElem?_spawn_of_ne source hplace)
  rw [attach_eq]
  cases hprevious : s.attached.lookup source.layer.id with
  | none => simp [hinstalled]
  | some previous => simp only [getElem?_told, hinstalled, Option.some.injEq]

theorem orderly_attach (source : DataSource) (h : s.Orderly) : (s.attach source).Orderly := by
  intro place b hb running
  -- The new agent keeps the layer up; of the others only the one that it replaces is told anything.
  by_cases hplace : place = s.agents.length
  · left
    subst hplace
    obtain ⟨a, moves, ha, hmoves⟩ := (continues_attach s.agents.length source s).backward hb
    obtain rfl := Option.some.inj (ha.symm.trans (getElem?_spawn source s))
    have hlayer : b.layerId = source.layer.id := Scene.layerId_trace? hmoves
    rw [attached_attach, hlayer, List.lookup_cons, beq_self_eq_true]
  · refine h.dismissed source.layer.id (getElem?_attach source hplace) (fun other hother => ?_) hb
      running
    have hne : (other == source.layer.id) = false := by simpa using hother
    rw [attached_attach, List.lookup_cons, hne]
    exact lookup_detached hother

/-- A property that is kept while a session goes on, when a layer is attached, and when one is given
up and its agent told to stop. -/
structure Kept (P : Session → Prop) : Prop where
  goesOn : ∀ {s t : Session}, P s → s.GoesOn t → P t
  attach : ∀ (source : DataSource) {s : Session}, P s → P (s.attach source)
  leave : ∀ {s : Session} {layerId : Text} {place : Nat}, P s →
    s.attached.lookup layerId = some place → P ((s.detach layerId).told place .stop)

theorem kept_orderly : Kept Orderly :=
  ⟨Orderly.goesOn, fun source _ => orderly_attach source, orderly_leave⟩

section Kept

variable {P : Session → Prop}

theorem Kept.shutDownAgent (hP : Kept P) (h : P s)
    (hplace : s.attached.lookup layerId = some place) :
    P ((s.detach layerId).shutDownAgent place).1 := by
  show P ((s.detach layerId).stopAgent place).settle
  rw [stopAgent_eq_told]
  exact hP.goesOn (hP.leave h hplace) (goesOn_settle _)

theorem Kept.removeLayer (hP : Kept P) (layerId : Text) (h : P s) :
    P (s.removeLayer layerId).1 := by
  unfold Session.removeLayer placeOf
  cases hplace : s.attached.lookup layerId with
  | none => exact h
  | some place =>
    have hshut := hP.shutDownAgent h hplace
    dsimp only
    split
    · next t heq => rwa [heq] at hshut
    · next t heq =>
      rw [heq] at hshut
      have hdropped := goesOn_edit (.dropLayer layerId) (t.note layerId .clear)
      exact hP.goesOn hshut ((goesOn_note layerId .clear t).trans hdropped)

theorem Kept.shutDown (hP : Kept P) (h : P s) : P s.shutDown := by
  unfold Session.shutDown
  generalize s.layerIds = layers
  induction layers generalizing s with
  | nil => exact h
  | cons layerId rest ih =>
    refine ih ?_
    dsimp only [placeOf]
    cases hplace : s.attached.lookup layerId with
    | none => exact h
    | some place => exact hP.shutDownAgent h hplace

end Kept

/-- The sessions that come about from one without layers by what it can be told. -/
inductive Arises (pace : Pace) (content : Content) (answers : List (Text × List Answer)) :
    Session → Prop
  | start : Arises pace content answers { pace := pace, content := content, answers := answers }
  | attach {s : Session} (source : DataSource) (h : Arises pace content answers s) :
      Arises pace content answers (s.attach source)
  | tell {s t : Session} (layerId : Text) (command : Command) (h : Arises pace content answers s)
      (ht : s.tell layerId command = .ok t) : Arises pace content answers t
  | edit {s : Session} (e : Edit) (h : Arises pace content answers s) :
      Arises pace content answers (s.edit e)
  | settle {s : Session} (h : Arises pace content answers s) : Arises pace content answers s.settle
  | advance {s : Session} (milliseconds : Nat) (h : Arises pace content answers s) :
      Arises pace content answers (s.advance milliseconds)
  | removeLayer {s : Session} (layerId : Text) (h : Arises pace content answers s) :
      Arises pace content answers (s.removeLayer layerId).1
  | shutDown {s : Session} (h : Arises pace content answers s) :
      Arises pace content answers s.shutDown
  | takeLog {s : Session} (h : Arises pace content answers s) : Arises pace content answers s.takeLog.2

theorem Kept.arises {P : Session → Prop} {pace : Pace} {content : Content}
    {answers : List (Text × List Answer)} (hP : Kept P)
    (hstart : P { pace := pace, content := content, answers := answers })
    (h : Arises pace content answers s) : P s := by
  induction h with
  | start => exact hstart
  | attach source _ ih => exact hP.attach source ih
  | @tell s t layerId command _ ht ih =>
    have htold := s.tell_eq_told layerId command
    rw [ht] at htold
    refine hP.goesOn ih ?_
    obtain rfl : t = _ := htold
    cases s.attached.lookup layerId with
    | none => exact .refl s
    | some place => exact goesOn_told place command s
  | edit e _ ih => exact hP.goesOn ih (goesOn_edit e _)
  | settle _ ih => exact hP.goesOn ih (goesOn_settle _)
  | advance milliseconds _ ih => exact hP.goesOn ih (goesOn_advance milliseconds _)
  | removeLayer layerId _ ih => exact hP.removeLayer layerId ih
  | shutDown _ ih => exact hP.shutDown ih
  | takeLog _ ih => exact hP.goesOn ih (SameStage.goesOn ⟨rfl, rfl, rfl, rfl⟩ rfl)

theorem Arises.orderly {pace : Pace} {content : Content} {answers : List (Text × List Answer)}
    (h : Arises pace content answers s) : s.Orderly :=
  kept_orderly.arises (fun place a ha => by simp at ha) h

end Session
end MapQuery
