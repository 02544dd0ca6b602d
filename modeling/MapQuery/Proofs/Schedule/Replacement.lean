import MapQuery.Proofs.Schedule.Orderly

/-!
# Agents that are replaced

A layer that is attached again gets a new agent at once, and the agent that it had is only told to
stop. Until that one has obeyed there are two agents of the layer, each with a request of its own.
Once every command to stop has been obeyed at most one request of the layer is outstanding, and the
agents that were replaced do nothing any more.
-/

set_option autoImplicit false

namespace MapQuery

open Deed

namespace Ensemble

variable {e f : Ensemble} {cue : Cue} {cues : List Cue} {past deeds : List (Nat × Deed)}
  {pace : Pace} {content : Content} {answers : List (Text × List Answer)}

theorem Leads.goesOn {t : Session} (h : e.Leads cue t deeds) :
    e.session.GoesOn t ∨ (∃ source, t = e.session.attach source) ∨
      ∃ layerId place, e.session.attached.lookup layerId = some place ∧
        t = (e.session.detach layerId).told place .stop := by
  cases h with
  | passed milliseconds => exact .inl (Session.goesOn_pass milliseconds e.session)
  | edited edit => exact .inl (Session.goesOn_edit edit e.session)
  | attached source => exact .inr (.inl ⟨source, rfl⟩)
  | told _ command place => exact .inl (Session.goesOn_told place command e.session)
  | unheard | unknown => exact .inl (.refl e.session)
  | dismissed layerId place hplace => exact .inr (.inr ⟨layerId, place, hplace, rfl⟩)
  | removed layerId _ a => exact .inl (Session.goesOn_remove layerId a e.session)
  | responded place response => exact .inl (Session.goesOn_bring place response e.session)
  | acted _ _ hact => exact .inl (Session.goesOn_act? hact)

theorem orderly_step? (h : e.session.Orderly) (hstep : e.step? cue = some (f, deeds)) :
    f.session.Orderly := by
  rcases (leads_of_step? hstep).goesOn with hgoesOn | ⟨source, hsession⟩ |
    ⟨layerId, place, hplace, hsession⟩
  · exact h.goesOn hgoesOn
  · rw [hsession]
    exact Session.orderly_attach source h
  · rw [hsession]
    exact Session.orderly_leave h hplace

theorem orderly (h : (start pace content answers).trace? cues = some (e, past)) :
    e.session.Orderly :=
  trace?_induction (P := fun e _ => e.session.Orderly) orderly_step? []
    (fun place a ha => by simp [start] at ha) h

/-- From now on the agent at a place does nothing. -/
def IsOver (e : Ensemble) (place : Nat) : Prop :=
  ∀ cues f future, e.trace? cues = some (f, future) → deedsOf place future = []

theorem isOver_of_ended {place : Nat} {a : Agent} (ha : e.session.agents[place]? = some a)
    (hended : a.isRunning = false) : e.IsOver place := by
  intro cues f future h
  obtain ⟨b, moves, -, hmoves⟩ := exists_trace?_of_agent ha h
  exact (Scene.ended_trace? hended hmoves).2

/-- The removal of a layer ends when its agent has. -/
theorem Leads.ended_of_left {t : Session} {layerId : Text} {place : Nat}
    (h : e.Leads (.left layerId place) t deeds) :
    ∃ b, t.agents[place]? = some b ∧ b.isRunning = false := by
  cases h with
  | removed _ _ a ha hended =>
    obtain ⟨b, moves, hb, hmoves⟩ :=
      (Session.continues_remove place layerId a e.session).forward ha
    exact ⟨b, hb, (Scene.ended_trace? hended hmoves).1⟩

theorem isOver_of_left {layerId : Text} {place : Nat}
    (h : e.step? (.left layerId place) = some (f, deeds)) : f.IsOver place := by
  obtain ⟨b, hb, hended⟩ := (leads_of_step? h).ended_of_left
  exact isOver_of_ended hb hended

/-- The request of an agent that is outstanding is the one that its refresher has in flight. -/
theorem isOutstanding_iff (h : (start pace content answers).trace? cues = some (e, past))
    {place : Nat} {a : Agent} (ha : e.session.agents[place]? = some a) (generation : Nat) :
    IsOutstanding (deedsOf place past) generation ↔
      a.refresher.status.inFlight = true ∧ generation = a.refresher.status.generation := by
  obtain ⟨_, _, _, _, _, hmoves⟩ := exists_story h ha
  exact Scene.isOutstanding_iff hmoves generation

theorem isRunning_of_isOutstanding
    (h : (start pace content answers).trace? cues = some (e, past)) {place : Nat} {a : Agent}
    (ha : e.session.agents[place]? = some a) {generation : Nat}
    (hopen : IsOutstanding (deedsOf place past) generation) : a.isRunning = true := by
  obtain ⟨_, _, _, _, _, hmoves⟩ := exists_story h ha
  cases running : a.isRunning with
  | true => rfl
  | false =>
    have hflight : a.refresher.status.inFlight = false := Scene.inFlight_of_ended hmoves running
    rw [((isOutstanding_iff h ha generation).1 hopen).1] at hflight
    cases hflight

/-- Of two agents of a layer that have not been told to stop at most one has a request outstanding,
and it has at most one. An agent that does not keep its layer up does nothing from when it has
obeyed the command to stop, and the agent of a layer that has been removed does nothing at all. -/
theorem one_outstanding (h : (start pace content answers).trace? cues = some (e, past)) :
    (∀ p q a b g g', e.session.agents[p]? = some a → e.session.agents[q]? = some b →
      a.layerId = b.layerId → .stop ∉ a.commands → .stop ∉ b.commands →
      IsOutstanding (deedsOf p past) g → IsOutstanding (deedsOf q past) g' → p = q ∧ g = g') ∧
    (∀ p a, e.session.agents[p]? = some a → e.session.attached.lookup a.layerId ≠ some p →
      .stop ∉ a.commands → e.IsOver p) ∧
    ∀ layerId p f deeds, e.step? (.left layerId p) = some (f, deeds) → f.IsOver p := by
  refine ⟨?_, ?_, fun layerId p f deeds hleft => isOver_of_left hleft⟩
  · intro p q a b g g' ha hb hlayer hastop hbstop hag hbg
    have harunning := isRunning_of_isOutstanding h ha hag
    have hbrunning := isRunning_of_isOutstanding h hb hbg
    obtain rfl :=
      (orderly h).eq_of_running ha hb harunning hbrunning hlayer hastop hbstop
    obtain rfl := Option.some.inj (ha.symm.trans hb)
    rw [isOutstanding_iff h ha] at hag hbg
    exact ⟨rfl, hag.2.trans hbg.2.symm⟩
  · intro p a ha hreplaced hstop
    refine isOver_of_ended ha ?_
    cases running : a.isRunning with
    | false => rfl
    | true => exact ((orderly h p a ha running).elim hreplaced hstop).elim

/-- A layer for which something is requested even where no area is included. -/
def plainSource (layerId : Text) : DataSource :=
  ⟨⟨layerId, "wfs"⟩, .cqlText, false, true, .empty, {}⟩

/-- Nothing is ever debounced in it. -/
abbrev hasty : Ensemble := start { debounce := 0 } .empty []

/-- One layer is attached again while its first request is in flight, and another one is removed.
The commands to stop have been obeyed. -/
theorem one_outstanding_of_attach :
    let cues := [.attach (plainSource "L"), .act 0 .obey, .act 0 .expire,
      .attach (plainSource "L"), .act 0 .obey, .act 1 .obey, .act 1 .expire,
      .attach (plainSource "M"), .leave "M", .act 2 .obey, .act 2 .obey]
    ∃ e past f, hasty.trace? cues = some (e, past) ∧ IsOutstanding (deedsOf 1 past) 1 ∧
      (∀ p a g, e.session.agents[p]? = some a → a.layerId = ("L" : Text) → .stop ∉ a.commands →
        IsOutstanding (deedsOf p past) g → p = 1 ∧ g = 1) ∧
      e.IsOver 0 ∧ e.step? (.left "M" 2) = some (f, []) ∧ f.IsOver 2 := by
  intro cues
  have hevaluated : (hasty.trace? cues).any (fun r =>
      (r.1.session.agents[0]?.any fun a => a.layerId == ("L" : Text) && a.commands.isEmpty) &&
      (r.1.session.agents[1]?.any fun a => a.layerId == ("L" : Text) && a.commands.isEmpty &&
        a.refresher.status.inFlight && a.refresher.status.generation == 1) &&
      r.1.session.attached.lookup ("L" : Text) == some 1 &&
      (r.1.step? (.left "M" 2)).any fun r' => r'.2.isEmpty) = true := by
    simp only [cues]
    decide +kernel
  simp only [Option.any_eq_true, Prod.exists, Bool.and_eq_true, beq_iff_eq,
    List.isEmpty_iff] at hevaluated
  obtain ⟨e, past, h, ⟨⟨⟨a, ha, halayer, hacommands⟩, b, hb, ⟨⟨hblayer, hbcommands⟩, hflight⟩,
    hgeneration⟩, hattached⟩, f, deeds, hleft, rfl⟩ := hevaluated
  obtain ⟨hone, hover, hleaves⟩ := one_outstanding h
  have hopen := (isOutstanding_iff h hb 1).2 ⟨hflight, hgeneration.symm⟩
  refine ⟨e, past, f, h, hopen, ?_, ?_, hleft, hleaves _ _ f _ hleft⟩
  · intro p c g hc hlayer hstop hg
    exact hone p 1 c b g 1 hc hb (hlayer.trans hblayer.symm) hstop (by simp [hbcommands]) hg hopen
  · refine hover 0 a ha ?_ (by simp [hacommands])
    rw [halayer, hattached]
    decide

/-- Until it obeys the command to stop, an agent that has been replaced may have a request
outstanding together with the one that has replaced it, and may deliver the answer. -/
theorem two_outstanding_after_attach :
    let cues := [.attach (plainSource "L"), .act 0 .obey, .act 0 .expire,
      .attach (plainSource "L"), .act 1 .obey, .act 1 .expire]
    ∃ e past f future, hasty.trace? cues = some (e, past) ∧
      e.session.attached.lookup ("L" : Text) = some 1 ∧
      (∀ p < 2, (e.session.agents[p]?.map Agent.layerId) = some ("L" : Text) ∧
        IsOutstanding (deedsOf p past) 1) ∧
      e.trace? [.respond 0 ⟨1, .body "late"⟩, .act 0 .receive] = some (f, future) ∧
      .did (.deliver 1 "late") ∈ deedsOf 0 future := by
  intro cues
  have hevaluated : (hasty.trace? cues).any (fun r =>
      (r.1.session.agents[0]?.any fun a => a.layerId == ("L" : Text) &&
        a.refresher.status.inFlight && a.refresher.status.generation == 1) &&
      (r.1.session.agents[1]?.any fun a => a.layerId == ("L" : Text) &&
        a.refresher.status.inFlight && a.refresher.status.generation == 1) &&
      r.1.session.attached.lookup ("L" : Text) == some 1 &&
      (r.1.trace? [.respond 0 ⟨1, .body "late"⟩, .act 0 .receive]).any fun r' =>
        deedsOf 0 r'.2 == [.took ⟨1, .body "late"⟩, .did (.deliver 1 "late")]) = true := by
    simp only [cues]
    decide +kernel
  simp only [Option.any_eq_true, Prod.exists, Bool.and_eq_true, beq_iff_eq] at hevaluated
  obtain ⟨e, past, h, ⟨⟨⟨a, ha, ⟨halayer, haflight⟩, hageneration⟩, b, hb, ⟨hblayer, hbflight⟩,
    hbgeneration⟩, hattached⟩, f, future, hfuture, hdeeds⟩ := hevaluated
  refine ⟨e, past, f, future, h, hattached, fun p hp => ?_, hfuture, by simp [hdeeds]⟩
  obtain rfl | rfl : p = 0 ∨ p = 1 := by omega
  · rw [isOutstanding_iff h ha]
    exact ⟨by simp [ha, halayer], haflight, hageneration.symm⟩
  · rw [isOutstanding_iff h hb]
    exact ⟨by simp [hb, hblayer], hbflight, hbgeneration.symm⟩

end Ensemble
end MapQuery
