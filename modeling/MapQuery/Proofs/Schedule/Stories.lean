import MapQuery.Proofs.Schedule.Ensemble

/-!
# What has become of each agent

Whatever happens in an ensemble, each of its agents goes on by a run of its own scene, from the time
at which it is started. What holds of the runs of one agent therefore holds of each of several.
-/

set_option autoImplicit false

namespace MapQuery

/-! ## What a session does to one of its agents -/

namespace Scene

theorem trace?_append {s t u : Scene} {before after : List Move} {past later : List Deed}
    (hs : s.trace? before = some (t, past)) (ht : t.trace? after = some (u, later)) :
    s.trace? (before ++ after) = some (u, past ++ later) := by
  induction before generalizing s past with
  | nil =>
    obtain ⟨rfl, rfl⟩ : s = t ∧ [] = past := by simpa [trace?] using hs
    exact ht
  | cons m rest ih =>
    obtain ⟨v, effects, more, hv, hrest, rfl⟩ := trace?_cons.1 hs
    exact trace?_cons.2 ⟨v, effects, more ++ later, hv, ih hrest, by simp⟩

theorem trace?_single {s t : Scene} {m : Move} {effects : List Effect}
    (h : s.step? m = some (t, effects)) : s.trace? [m] = some (t, s.deeds m effects) :=
  trace?_cons.2 ⟨t, effects, [], h, rfl, (List.append_nil _).symm⟩

/-- A turn of an agent is a run in which neither the time nor the content changes. -/
theorem exists_trace?_of_turn (s : Scene) :
    ∃ moves past, s.trace? moves =
      some ({ s with agent := (s.agent.turn s.now s.content).1 }, past) := by
  obtain ⟨moves, hrun⟩ := s.exists_run?_of_turn
  rw [run?_eq_map_trace?] at hrun
  obtain ⟨⟨t, past⟩, htrace, heq⟩ := Option.map_eq_some_iff.1 hrun
  obtain ⟨rfl, -⟩ := Prod.mk.inj heq
  exact ⟨moves, past, htrace⟩

end Scene

namespace Session

/-- The agent at a place, if there is one, goes on from one session to another by a run of its scene
with the given deeds. -/
inductive Continues (place : Nat) (s t : Session) (deeds : List Deed) : Prop
  | nobody (hs : s.agents[place]? = none) (ht : t.agents[place]? = none) (hdeeds : deeds = [])
  | somebody {a b : Agent} (hs : s.agents[place]? = some a) (ht : t.agents[place]? = some b)
      (moves : List Move) (hmoves : (s.scene a).trace? moves = some (t.scene b, deeds))

variable {place other : Nat} {s t u : Session} {deeds later : List Deed}

theorem Continues.forward {a : Agent} (h : Continues place s t deeds)
    (ha : s.agents[place]? = some a) : ∃ b moves, t.agents[place]? = some b ∧
      (s.scene a).trace? moves = some (t.scene b, deeds) := by
  cases h with
  | nobody hnone => rw [hnone] at ha; cases ha
  | somebody hsome hb moves hmoves =>
    obtain rfl := Option.some.inj (ha.symm.trans hsome)
    exact ⟨_, moves, hb, hmoves⟩

theorem Continues.backward {b : Agent} (h : Continues place s t deeds)
    (hb : t.agents[place]? = some b) : ∃ a moves, s.agents[place]? = some a ∧
      (s.scene a).trace? moves = some (t.scene b, deeds) := by
  cases h with
  | nobody _ hnone => rw [hnone] at hb; cases hb
  | somebody ha hsome moves hmoves =>
    obtain rfl := Option.some.inj (hb.symm.trans hsome)
    exact ⟨_, moves, ha, hmoves⟩

theorem Continues.trans (hs : Continues place s t deeds) (ht : Continues place t u later) :
    Continues place s u (deeds ++ later) := by
  cases hs with
  | nobody hs hnone hdeeds =>
    cases ht with
    | nobody _ hu hlater => exact .nobody hs hu (by rw [hdeeds, hlater, List.append_nil])
    | somebody hsome => rw [hnone] at hsome; cases hsome
  | somebody hs hsome before hbefore =>
    obtain ⟨c, after, hu, hafter⟩ := ht.forward hsome
    exact .somebody hs hu (before ++ after) (Scene.trace?_append hbefore hafter)

theorem continues_of_map {f : Agent → Agent}
    (hagents : t.agents[place]? = s.agents[place]?.map f)
    (h : ∀ a, ∃ moves, (s.scene a).trace? moves = some (t.scene (f a), [])) :
    Continues place s t [] := by
  cases ha : s.agents[place]? with
  | none => exact .nobody ha (by rw [hagents, ha]; rfl) rfl
  | some a =>
    obtain ⟨moves, hmoves⟩ := h a
    exact .somebody ha (by rw [hagents, ha]; rfl) moves hmoves

theorem continues_of_eq (hagent : t.agents[place]? = s.agents[place]?) (hnow : t.now = s.now)
    (hcontent : t.content = s.content) : Continues place s t [] := by
  refine continues_of_map (f := id) (by rw [hagent, Option.map_id]; rfl) fun a => ⟨[], ?_⟩
  simp only [scene, hnow, hcontent]
  rfl

theorem SameStage.continues (h : s.SameStage t) (hagent : t.agents[place]? = s.agents[place]?) :
    Continues place s t [] :=
  continues_of_eq hagent h.now h.content

/-! What waits for one agent -/

theorem continues_bring (place other : Nat) (response : Response) (s : Session) :
    Continues place s (s.bring other response) [] := by
  obtain ⟨hagents, hstage⟩ := agents_bring other response s
  refine continues_of_map (f := fun a => if other = place then a.respond response else a) ?_ ?_
  · rw [hagents, List.getElem?_modify]
    rfl
  · intro a
    rw [hstage.scene]
    split
    · exact ⟨[.respond response], rfl⟩
    · exact ⟨[], rfl⟩

theorem continues_told (place other : Nat) (command : Command) (s : Session) :
    Continues place s (s.told other command) [] := by
  refine continues_of_map (getElem?_told place other command s) fun a => ?_
  rw [(sameStage_told other command s).scene]
  split
  · cases running : a.isRunning with
    | true => exact ⟨[.tell command], by simp [Scene.trace?, Scene.step?, scene, reach, running,
        Scene.deeds, Scene.taken]⟩
    | false => exact ⟨[], by simp [Scene.trace?, reach, running]⟩
  · exact ⟨[], rfl⟩

/-! Time goes on, and an edit is announced to every agent -/

theorem continues_pass (place milliseconds : Nat) (s : Session) :
    Continues place s { s with now := s.now + milliseconds } [] :=
  continues_of_map (f := id) (by rw [Option.map_id]; rfl) fun _ => ⟨[.pass milliseconds], rfl⟩

theorem continues_edit (place : Nat) (e : Edit) (s : Session) :
    Continues place s (s.edit e) [] := by
  refine continues_of_map (f := fun a => ((s.scene a).edited e).agent) ?_ fun a =>
    ⟨[.edit e], ?_⟩
  · simp only [edit, Scene.edited, scene]
    cases s.content.announced e <;> simp
  · obtain ⟨-, hnow, hcontent, -⟩ := s.stage_edit e
    simp only [scene, hnow, hcontent]
    rfl

/-! One agent acts -/

theorem continues_set {a b : Agent} {moves : List Move} (ha : s.agents[place]? = some a)
    (hmoves : (s.scene a).trace? moves = some (s.scene b, deeds)) (hstage : s.SameStage t)
    (hagents : t.agents = s.agents.set place b) :
    Continues place s t deeds ∧ ∀ other, other ≠ place → Continues other s t [] := by
  constructor
  · refine .somebody ha (b := b) ?_ moves ?_
    · rw [hagents, List.getElem?_set_self (List.getElem?_eq_some_iff.1 ha).1]
    · rwa [hstage.scene]
  · intro other hne
    refine hstage.continues ?_
    rw [hagents, List.getElem?_set_ne (Ne.symm hne)]

theorem continues_act? {m : Move} {r : Session × List Deed} (h : s.act? place m = some r) :
    Continues place s r.1 r.2 ∧ ∀ other, other ≠ place → Continues other s r.1 [] := by
  obtain ⟨a, b, effects, ha, running, hact, hagents, hstage, hdeeds⟩ := act?_cases h
  have hstep := Scene.step?_of_act? (s := s.scene a) running hact
  rw [hdeeds]
  exact continues_set ha (Scene.trace?_single hstep) hstage hagents

/-! A layer is attached -/

theorem getElem?_spawn_of_ne (source : DataSource) (hplace : place ≠ s.agents.length) :
    (s.spawn source).1.agents[place]? = s.agents[place]? := by
  show (s.agents ++ [_])[place]? = s.agents[place]?
  rcases Nat.lt_or_gt_of_ne hplace with hlt | hgt
  · exact List.getElem?_append_left hlt
  · rw [List.getElem?_eq_none (by simp; omega), List.getElem?_eq_none (by omega)]

theorem continues_spawn (source : DataSource) (hplace : place ≠ s.agents.length) :
    Continues place s (s.spawn source).1 [] :=
  continues_of_eq (getElem?_spawn_of_ne source hplace) rfl rfl

theorem continues_installed (place : Nat) (source : DataSource) (s : Session) :
    Continues place (s.spawn source).1 (s.installed source) [] :=
  (continues_told place s.agents.length .refresh (s.spawn source).1).trans
    (continues_of_eq rfl rfl rfl)

/-- From its start on the new agent goes on like the others. -/
theorem continues_attach (place : Nat) (source : DataSource) (s : Session) :
    Continues place (s.spawn source).1 (s.attach source) [] := by
  rw [attach_eq]
  cases s.attached.lookup source.layer.id with
  | none => exact continues_installed place source s
  | some previous =>
    exact (continues_installed place source s).trans (continues_told place previous .stop _)

theorem getElem?_spawn (source : DataSource) (s : Session) :
    (s.spawn source).1.agents[s.agents.length]? =
      some { refresher := .start source s.pace } := by
  show (s.agents ++ [_])[s.agents.length]? = _
  simp

theorem continues_leave (place other : Nat) (layerId : Text) (s : Session) :
    Continues place s ((s.detach layerId).told other .stop) [] := by
  have hdetach : Continues place s (s.detach layerId) [] := continues_of_eq rfl rfl rfl
  exact hdetach.trans (continues_told place other .stop _)

theorem continues_remove (place : Nat) (layerId : Text) (a : Agent) (s : Session) :
    Continues place s (s.remove layerId a) [] := by
  unfold remove
  split
  · exact continues_of_eq rfl rfl rfl
  · have hnote : Continues place s (s.note layerId .clear) [] := continues_of_eq rfl rfl rfl
    exact hnote.trans (continues_edit place (.dropLayer layerId) _)

end Session

namespace Ensemble

open Session (Continues)

variable {e f : Ensemble} {cue : Cue} {cues : List Cue} {past deeds : List (Nat × Deed)}

/-- Whatever happens, an agent goes on by a run of its scene, unless it has just been started. -/
theorem Leads.continues {t : Session} (h : e.Leads cue t deeds) (place : Nat) :
    Continues place e.session t (deedsOf place deeds) ∨
      ∃ source, t = e.session.attach source ∧ deeds = [] ∧ place = e.session.agents.length := by
  cases h with
  | passed milliseconds => exact .inl (Session.continues_pass place milliseconds e.session)
  | edited edit => exact .inl (Session.continues_edit place edit e.session)
  | attached source =>
    by_cases hplace : place = e.session.agents.length
    · exact .inr ⟨source, rfl, rfl, hplace⟩
    · exact .inl ((Session.continues_spawn source hplace).trans
        (Session.continues_attach place source e.session))
  | told _ command other => exact .inl (Session.continues_told place other command e.session)
  | unheard | unknown => exact .inl (Session.continues_of_eq rfl rfl rfl)
  | dismissed layerId other =>
    exact .inl (Session.continues_leave place other layerId e.session)
  | removed layerId _ a => exact .inl (Session.continues_remove place layerId a e.session)
  | responded other response =>
    exact .inl (Session.continues_bring place other response e.session)
  | acted other m hact =>
    obtain ⟨hown, hothers⟩ := Session.continues_act? hact
    left
    by_cases hplace : place = other
    · rw [← hplace] at hown ⊢
      rw [deedsOf_map_self]
      exact hown
    · rw [deedsOf_map_of_ne (Ne.symm hplace)]
      exact hothers place hplace

/-- Whatever happens from some time on, an agent that was there goes on by a run of its scene. -/
theorem exists_trace?_of_agent {g : Ensemble} {later : List (Nat × Deed)} {place : Nat} {a : Agent}
    (ha : e.session.agents[place]? = some a) (h : e.trace? cues = some (g, later)) :
    ∃ b moves, g.session.agents[place]? = some b ∧
      (e.session.scene a).trace? moves = some (g.session.scene b, deedsOf place later) := by
  refine trace?_induction (P := fun f past => ∃ b moves, f.session.agents[place]? = some b ∧
    (e.session.scene a).trace? moves = some (f.session.scene b, deedsOf place past))
    (fun {f g cue past deeds} hf hstep => ?_) [] ⟨a, [], ha, rfl⟩ h
  obtain ⟨b, moves, hb, hmoves⟩ := hf
  rcases (leads_of_step? hstep).continues place with hcontinues | ⟨-, -, -, hplace⟩
  · obtain ⟨c, more, hc, hmore⟩ := hcontinues.forward hb
    refine ⟨c, moves ++ more, hc, ?_⟩
    rw [deedsOf_append]
    exact Scene.trace?_append hmoves hmore
  · rw [hplace] at hb
    simp at hb

/-- The deeds at a place are those of a run of its agent's scene; where nobody has been there are
none. -/
inductive HasStory (place : Nat) (e : Ensemble) (past : List (Nat × Deed)) : Prop
  | nobody (h : e.session.agents[place]? = none) (hdeeds : deedsOf place past = [])
  | somebody {a : Agent} (h : e.session.agents[place]? = some a) (source : DataSource) (pace : Pace)
      (content : Content) (now : Nat) (moves : List Move)
      (hmoves : (Scene.start source pace content now).trace? moves =
        some (e.session.scene a, deedsOf place past))

theorem HasStory.step {place : Nat} (he : HasStory place e past)
    (hstep : e.step? cue = some (f, deeds)) : HasStory place f (past ++ deeds) := by
  rcases (leads_of_step? hstep).continues place with hcontinues | ⟨source, hsession, rfl, rfl⟩
  · cases he with
    | nobody hnone hpast =>
      cases hcontinues with
      | nobody _ ht hdeeds => exact .nobody ht (by rw [deedsOf_append, hpast, hdeeds]; rfl)
      | somebody hsome => rw [hnone] at hsome; cases hsome
    | somebody hsome source pace content now moves hmoves =>
      obtain ⟨b, after, hb, hafter⟩ := hcontinues.forward hsome
      refine .somebody hb source pace content now (moves ++ after) ?_
      rw [deedsOf_append]
      exact Scene.trace?_append hmoves hafter
  -- The agent has just been started, so nothing is known of its place before.
  · have hbefore : e.session.agents[e.session.agents.length]? = none := by simp
    cases he with
    | somebody hsome => rw [hbefore] at hsome; cases hsome
    | nobody _ hpast =>
      have hattach := Session.continues_attach e.session.agents.length source e.session
      obtain ⟨b, moves, hb, hmoves⟩ := hattach.forward (Session.getElem?_spawn source e.session)
      rw [← hsession] at hb hmoves
      refine .somebody hb source e.session.pace e.session.content e.session.now moves ?_
      rw [deedsOf_append, hpast]
      exact hmoves

/-- Whatever an agent has done, it has done in a run of its own scene. -/
theorem exists_story {pace : Pace} {content : Content} {answers : List (Text × List Answer)}
    (h : (start pace content answers).trace? cues = some (e, past)) {place : Nat} {a : Agent}
    (ha : e.session.agents[place]? = some a) :
    ∃ source pace content now moves, (Scene.start source pace content now).trace? moves =
      some (e.session.scene a, deedsOf place past) := by
  have hstory : HasStory place e past :=
    trace?_induction (P := HasStory place) HasStory.step [] (.nobody rfl rfl) h
  cases hstory with
  | nobody hnone => rw [hnone] at ha; cases ha
  | somebody hsome source pace content now moves hmoves =>
    obtain rfl := Option.some.inj (hsome.symm.trans ha)
    exact ⟨source, pace, content, now, moves, hmoves⟩

end Ensemble
end MapQuery
