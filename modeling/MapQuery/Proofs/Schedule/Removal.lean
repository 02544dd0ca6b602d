import MapQuery.Proofs.Schedule.Dismissal
import MapQuery.Proofs.Schedule.Replacement
import MapQuery.Proofs.Workspace.Announcements

/-!
# The removal of a layer

A layer that is removed has its agent stopped, which aborts the request in flight, its results
dropped and its entries taken out; nothing that belongs to another layer is touched. All of that
depends on the agent stopping in the ordinary way. If a time window has made it crash, the layer is
given up, but its results and its entries stay.
-/

set_option autoImplicit false

namespace MapQuery

open Deed

/-- Whether the requests that were outstanding have come to an end since: each was aborted, or a
reply to it taken up, and no other one is outstanding. -/
def Deed.Closes (past later : List Deed) : Prop :=
  (∀ n, IsOutstanding past n → .did (.abort n) ∈ later ∨ ∃ reply, .took ⟨n, reply⟩ ∈ later) ∧
    ∀ n, ¬ IsOutstanding (past ++ later) n

/-! ## The end of a removal -/

namespace Session

variable {s t u : Session} {place : Nat} {layerId : Text}

/-- What the end of a removal does to a session. -/
structure Drops (layerId : Text) (s t : Session) : Prop where
  attached : t.attached = s.attached
  log : t.log = s.log ++ [⟨layerId, .clear⟩]
  entries : t.content.entries = s.content.entries.filter fun e => !e.names layerId
  areas : t.content.areas = s.content.areas
  filters : t.content.filters = s.content.filters
  resolve : ∀ layer : Layer, layer.id ≠ layerId →
    t.content.resolve layer = s.content.resolve layer
  /-- A change is announced, which is none to other layers. -/
  announced : ∃ change, t.agents = s.agents.map (Agent.announce change) ∧
    ∀ other, other ≠ layerId → ∀ c : Content, c.concerns other change = false

theorem drops_edit (layerId : Text) (s : Session) :
    s.Drops layerId ((s.note layerId .clear).edit (.dropLayer layerId)) := by
  have hunconcerned : ∀ other, other ≠ layerId → ∀ c : Content,
      c.concerns other (.layerRemoved layerId) = false := by
    intro other hother c
    simpa [Content.concerns] using Ne.symm hother
  refine ⟨rfl, rfl, rfl, rfl, rfl, ?_, .layerRemoved layerId, rfl, hunconcerned⟩
  intro layer hlayer
  refine Content.resolve_edit fun change hchange => ?_
  rw [← Option.some.inj hchange]
  exact hunconcerned layer.id hlayer _

theorem removeLayer_of_not_attached (h : s.attached.lookup layerId = none) :
    s.removeLayer layerId = (s, .error (.unknownSource layerId)) := by
  simp only [removeLayer, placeOf, h]

theorem shutDownAgent_eq {b : Agent} (hb : (s.shutDownAgent place).1.agents[place]? = some b) :
    s.shutDownAgent place = ((s.shutDownAgent place).1, b.condition != .crashed) := by
  refine Prod.ext rfl ?_
  show ((s.shutDownAgent place).1.agents[place]?.all fun a => a.condition != .crashed) = _
  rw [hb, Option.all_some]

/-- When the agent of the layer has stopped, the removal ends and tells how many entries it has
taken out. -/
theorem removeLayer_of_stopped {b : Agent} (hplace : s.attached.lookup layerId = some place)
    (hcontent : ((s.detach layerId).shutDownAgent place).1.content = s.content)
    (hb : ((s.detach layerId).shutDownAgent place).1.agents[place]? = some b)
    (hstopped : b.condition = .stopped) :
    ∃ t, s.removeLayer layerId = (t, .ok (s.content.entries.countP (·.names layerId))) ∧
      ((s.detach layerId).shutDownAgent place).1.Drops layerId t := by
  have hshut : _ = (_, true) := (shutDownAgent_eq hb).trans (by rw [hstopped]; rfl)
  generalize ((s.detach layerId).shutDownAgent place).1 = u at *
  have hcount : u.content.entries.length -
      ((u.note layerId .clear).edit (.dropLayer layerId)).content.entries.length =
        s.content.entries.countP (·.names layerId) := by
    rw [(drops_edit layerId u).entries, hcontent, ← List.countP_eq_length_filter]
    have hsplit := List.length_eq_countP_add_countP (fun e : Entry => e.names layerId)
      (l := s.content.entries)
    simp only [Bool.not_eq_true, Bool.decide_eq_false] at hsplit
    omega
  refine ⟨_, ?_, drops_edit layerId u⟩
  simp only [removeLayer, placeOf, hplace, hshut, ← hcount]

/-- When the agent of the layer has crashed, the layer is given up and nothing else is done. -/
theorem removeLayer_of_crashed {b : Agent} (hplace : s.attached.lookup layerId = some place)
    (hb : ((s.detach layerId).shutDownAgent place).1.agents[place]? = some b)
    (hcrashed : b.condition = .crashed) :
    s.removeLayer layerId =
      (((s.detach layerId).shutDownAgent place).1, .error (.closed layerId)) := by
  have hshut : _ = (_, false) := (shutDownAgent_eq hb).trans (by rw [hcrashed]; rfl)
  generalize ((s.detach layerId).shutDownAgent place).1 = u at *
  simp only [removeLayer, placeOf, hplace, hshut]

end Session

/-! ## While the agent is waited for -/

namespace Cue

/-- Whether a layer is attached. -/
def attaches (layerId : Text) : Cue → Bool
  | .attach source => source.layer.id == layerId
  | _ => false

/-- Whether someone calls. Otherwise the clock goes on, a reply comes or an agent acts. -/
def isCall : Cue → Bool
  | .pass _ | .respond .. | .act .. => false
  | .edit _ | .attach _ | .tell .. | .leave _ | .left .. => true

end Cue

namespace Ensemble

variable {e f g r : Ensemble} {cue : Cue} {cues meanwhile : List Cue}
  {past deeds later : List (Nat × Deed)} {place : Nat} {layerId : Text}

/-- What every cue of some kind keeps holds after a run of such cues. -/
theorem trace?_induction_of {P : Ensemble → Prop} {p : Cue → Bool}
    (hstep : ∀ {e f : Ensemble} {cue : Cue} {deeds : List (Nat × Deed)}, p cue = true → P e →
      e.step? cue = some (f, deeds) → P f)
    (hcues : ∀ cue ∈ cues, p cue = true) (h : P e) (htrace : e.trace? cues = some (g, later)) :
    P g := by
  induction cues generalizing e later with
  | nil =>
    obtain ⟨rfl, -⟩ := Prod.mk.inj (Option.some.inj htrace)
    exact h
  | cons cue rest ih =>
    obtain ⟨f, deeds, more, hf, hrest, -⟩ := trace?_cons.1 htrace
    exact ih (fun c hc => hcues c (List.mem_cons_of_mem _ hc))
      (hstep (hcues cue List.mem_cons_self) h hf) hrest

theorem not_attached_step? (hcue : cue.attaches layerId = false)
    (h : e.session.attached.lookup layerId = none) (hstep : e.step? cue = some (f, deeds)) :
    f.session.attached.lookup layerId = none := by
  have hleads := leads_of_step? hstep
  generalize f.session = t at hleads
  cases hleads with
  | passed | unheard | unknown => exact h
  | edited edit => rwa [(Session.goesOn_edit edit e.session).attached]
  | told _ command other => rwa [(Session.goesOn_told other command e.session).attached]
  | removed other _ a => rwa [(Session.goesOn_remove other a e.session).attached]
  | responded other response => rwa [(Session.goesOn_bring other response e.session).attached]
  | acted _ _ hact => rwa [(Session.goesOn_act? hact).attached]
  | attached source =>
    have hother : layerId ≠ source.layer.id := by
      rintro rfl
      simp [Cue.attaches] at hcue
    have hbeq : (layerId == source.layer.id) = false := by simpa using hother
    rwa [Session.attached_attach, List.lookup_cons, hbeq, Session.lookup_detached hother]
  | dismissed other place =>
    rw [(Session.sameStage_told place .stop _).attached]
    by_cases hother : layerId = other
    · rw [hother]
      exact Session.lookup_detach other e.session
    · exact (Session.lookup_detached hother).trans h

theorem content_step? (hcue : cue.isCall = false) (hstep : e.step? cue = some (f, deeds)) :
    f.session.content = e.session.content := by
  have hleads := leads_of_step? hstep
  generalize f.session = t at hleads
  cases hleads with
  | passed => rfl
  | responded other response => exact (Session.agents_bring other response e.session).2.content
  | acted other m hact =>
    obtain ⟨_, _, _, _, _, _, _, hstage, _⟩ := Session.act?_cases hact
    exact hstage.content
  | edited | attached | told | unheard | dismissed | unknown | removed => cases hcue

theorem exists_step?_obey {b : Agent} {command : Command} {rest : List Command}
    (hb : e.session.agents[place]? = some b) (running : b.isRunning = true)
    (hcommands : b.commands = command :: rest) :
    ∃ f deeds, e.step? (.act place .obey) = some (f, deeds) ∧ f.leaving = e.leaving ∧
      f.session.agents[place]? =
        some (Agent.obey e.session.now { b with commands := rest } command).1 := by
  have hfiltered : e.session.agents[place]?.filter Agent.isRunning = some b := by
    simp [hb, running]
  have hact : (e.session.scene b).act? .obey =
      some (Agent.obey e.session.now { b with commands := rest } command) := by
    simp [Scene.act?, Session.scene, hcommands]
  generalize Agent.obey e.session.now { b with commands := rest } command = result at hact ⊢
  obtain ⟨r, hr, hagents⟩ : ∃ r, e.session.act? place .obey = some r ∧
      r.1.agents = e.session.agents.set place result.1 := by
    simp only [Session.act?, hfiltered, hact, Option.map_some]
    exact ⟨_, rfl, (Session.agents_perform place b.layerId result.2 _).1⟩
  refine ⟨⟨r.1, e.leaving⟩, r.2.map (place, ·), by rw [step?, hr]; rfl, rfl, ?_⟩
  rw [hagents]
  exact List.getElem?_set_self (List.getElem?_eq_some_iff.1 hb).1

/-- An agent that obeys its commands, one of which is to stop, stops. -/
theorem exists_stopped {b : Agent} (hb : e.session.agents[place]? = some b)
    (running : b.isRunning = true) (hstop : .stop ∈ b.commands) :
    ∃ n g later c, e.trace? (List.replicate n (.act place .obey)) = some (g, later) ∧
      g.session.agents[place]? = some c ∧ c.condition = .stopped ∧ g.leaving = e.leaving := by
  -- the commands before the one to stop are obeyed first
  generalize hcommands : b.commands = commands at hstop
  induction commands generalizing e b with
  | nil => cases hstop
  | cons command rest ih =>
    obtain ⟨f, deeds, hf, hleaving, ha⟩ := exists_step?_obey hb running hcommands
    have hgoesOn : command ≠ .stop → ∃ n g later c,
        e.trace? (List.replicate n (.act place .obey)) = some (g, later) ∧
          g.session.agents[place]? = some c ∧ c.condition = .stopped ∧
          g.leaving = e.leaving := by
      intro hcommand
      have hrest := (List.mem_cons.1 hstop).resolve_left (Ne.symm hcommand)
      obtain ⟨n, g, later, c, hg, hc, hstopped, hwaits⟩ := ih ha
        (by cases command <;> first | exact running | exact absurd rfl hcommand)
        (by cases command <;> first | rfl | exact absurd rfl hcommand) hrest
      exact ⟨n + 1, g, _, c, trace?_cons.2 ⟨f, deeds, later, hf, hg, rfl⟩, hc, hstopped,
        hwaits.trans hleaving⟩
    cases command with
    | stop =>
      exact ⟨1, f, _, _, trace?_cons.2 ⟨f, deeds, [], hf, rfl, rfl⟩, ha, rfl, hleaving⟩
    | refresh | setVisible | setWindow => exact hgoesOn nofun

variable {pace : Pace} {content : Content} {answers : List (Text × List Answer)}

theorem step?_leave (hplace : e.session.attached.lookup layerId = some place) :
    e.step? (.leave layerId) =
      some (⟨(e.session.detach layerId).told place .stop, (layerId, place) :: e.leaving⟩, []) := by
  simp only [step?, Session.placeOf, hplace, Session.stopAgent_eq_told]

/-- The removal of a layer whose agent runs can end. -/
theorem exists_step?_left {a : Agent} (ha : e.session.agents[place]? = some a)
    (running : a.isRunning = true) (hplace : e.session.attached.lookup layerId = some place)
    (hf : e.step? (.leave layerId) = some (f, deeds)) :
    ∃ n g later b r, f.trace? (List.replicate n (.act place .obey)) = some (g, later) ∧
      g.session.agents[place]? = some b ∧ b.condition = .stopped ∧
      g.step? (.left layerId place) = some (r, []) := by
  rw [step?_leave hplace] at hf
  obtain ⟨rfl, rfl⟩ := Prod.mk.inj (Option.some.inj hf)
  have htold : Session.reach .stop a = a.tell .stop := if_pos running
  have hb : ((e.session.detach layerId).told place .stop).agents[place]? =
      some (a.tell .stop) := by
    rw [Session.getElem?_told, ← htold]
    exact (congrArg _ ha).trans (by simp)
  obtain ⟨n, g, later, b, hg, hb, hstopped, hwaits⟩ := exists_stopped
    (e := ⟨(e.session.detach layerId).told place .stop, (layerId, place) :: e.leaving⟩)
    hb running (List.mem_append_right _ (List.mem_singleton.2 rfl))
  have hended : (layerId, place) ∈ g.leaving ∧ b.isRunning = false := by
    rw [hwaits]
    exact ⟨List.mem_cons_self, by simp [Agent.isRunning, hstopped]⟩
  refine ⟨n, g, later, b, ⟨g.session.remove layerId b, g.leaving.erase (layerId, place)⟩, hg, hb,
    hstopped, ?_⟩
  simp only [step?, hb]
  exact if_pos hended

theorem closes_of_ended (h : (start pace content answers).trace? cues = some (e, past))
    {more : List Cue} (hmore : e.trace? more = some (g, later)) {a b : Agent}
    (ha : e.session.agents[place]? = some a) (hb : g.session.agents[place]? = some b)
    (hended : b.isRunning = false) : Closes (deedsOf place past) (deedsOf place later) := by
  obtain ⟨source, pace', content', now, before, hbefore⟩ := exists_story h ha
  obtain ⟨c, moves, hc, hmoves⟩ := exists_trace?_of_agent ha hmore
  obtain rfl := Option.some.inj (hc.symm.trans hb)
  have hall := Scene.trace?_append hbefore hmoves
  have hidle : c.refresher.status.inFlight = false := Scene.inFlight_of_ended hall hended
  have hnone : ∀ n, ¬ IsOutstanding (deedsOf place past ++ deedsOf place later) n := by
    intro n hopen
    have hflight : c.refresher.status.inFlight = true :=
      ((Scene.isOutstanding_iff hall n).1 hopen).1
    rw [hidle] at hflight
    cases hflight
  exact ⟨fun n hopen => aborted_or_took_of_isOutstanding hopen (hnone n), hnone⟩

theorem step?_left {deeds : List (Nat × Deed)} {b : Agent}
    (hb : g.session.agents[place]? = some b) (hstopped : b.condition = .stopped)
    (h : g.step? (.left layerId place) = some (r, deeds)) :
    r.session.attached = g.session.attached ∧ g.session.Drops layerId r.session := by
  have hleads := leads_of_step? h
  generalize r.session = t at hleads
  cases hleads with
  | removed _ _ a ha =>
    obtain rfl := Option.some.inj (ha.symm.trans hb)
    have hremove : g.session.remove layerId a =
        (g.session.note layerId .clear).edit (.dropLayer layerId) := by
      simp [Session.remove, hstopped]
    rw [hremove]
    exact ⟨rfl, Session.drops_edit layerId g.session⟩

/-- Removing a layer touches only that layer. One that is not attached cannot be removed, and
nothing changes. Otherwise the layer is no longer attached at once, and its agent told to stop. When
the agent has stopped, its request in flight has been aborted by its own generation, or its reply
taken up before, and the removal ends: the layer's results are dropped last, and its entries and
nothing else are taken out. The agent stops when it has obeyed its commands.

The second part is about a session that serves its turns in order, the third about whatever else
happens while the agent is waited for. -/
theorem removal_touches_only_layer (pace : Pace) (content : Content)
    (answers : List (Text × List Answer)) (layerId : Text) :
    (∀ s : Session, s.attached.lookup layerId = none →
      s.removeLayer layerId = (s, .error (.unknownSource layerId))) ∧
    (∀ (s : Session) (place : Nat) (a b : Agent), Session.Arises pace content answers s →
      s.attached.lookup layerId = some place → s.agents[place]? = some a →
      let u := ((s.detach layerId).shutDownAgent place).1
      u.agents[place]? = some b → b.condition = .stopped →
      ∃ t during, s.removeLayer layerId =
          (t, .ok (s.content.entries.countP (·.names layerId))) ∧
        t.attached.lookup layerId = none ∧
        (∀ other, other ≠ layerId → t.attached.lookup other = s.attached.lookup other) ∧
        u.log = s.log ++ during ∧
        (a.flight.1 = true → ⟨layerId, .abort a.flight.2⟩ ∈ during) ∧
        u.content = s.content ∧ u.Drops layerId t) ∧
    ∀ (cues : List Cue) (e f : Ensemble) (past deeds : List (Nat × Deed)) (place : Nat) (a : Agent),
      (start pace content answers).trace? cues = some (e, past) →
      e.session.attached.lookup layerId = some place → e.session.agents[place]? = some a →
      e.step? (.leave layerId) = some (f, deeds) →
      f.session.attached.lookup layerId = none ∧
      (∀ other, other ≠ layerId →
        f.session.attached.lookup other = e.session.attached.lookup other) ∧
      (a.isRunning = true → ∃ n g later b r,
        f.trace? (List.replicate n (.act place .obey)) = some (g, later) ∧
        g.session.agents[place]? = some b ∧ b.condition = .stopped ∧
        g.step? (.left layerId place) = some (r, [])) ∧
      ∀ (meanwhile : List Cue) (g r : Ensemble) (later deeds : List (Nat × Deed)) (b : Agent),
        f.trace? meanwhile = some (g, later) → g.session.agents[place]? = some b →
        b.condition = .stopped → g.step? (.left layerId place) = some (r, deeds) →
        Closes (deedsOf place past) (deedsOf place later) ∧ r.IsOver place ∧
        g.session.Drops layerId r.session ∧
        ((∀ cue ∈ meanwhile, cue.attaches layerId = false) →
          r.session.attached.lookup layerId = none) ∧
        ((∀ cue ∈ meanwhile, cue.isCall = false) → g.session.content = e.session.content) := by
  refine ⟨fun s => Session.removeLayer_of_not_attached, ?_, ?_⟩
  · intro s place a b harises hplace ha u hb hstopped
    have hhoused := Session.kept_housed.arises (Session.housed_start pace content answers) harises
    obtain ⟨hcontent, during, c, hlog, hc, -, hheeds⟩ :=
      Session.dismisses_shutDownAgent hhoused hplace ha
    obtain rfl := Option.some.inj (hc.symm.trans hb)
    obtain ⟨t, hremoved, hdrops⟩ := Session.removeLayer_of_stopped hplace hcontent hb hstopped
    have hattached := hdrops.attached.trans (Session.attached_shutDownAgent layerId place s)
    refine ⟨t, during, hremoved, ?_, ?_, hlog, ?_, hcontent, hdrops⟩
    · rw [hattached]
      exact Session.lookup_detach layerId s
    · intro other hother
      rw [hattached]
      exact Session.lookup_detached hother
    · cases hheeds with
      | waits running => simp [Agent.isRunning, hstopped] at running
      | stopped _ haborted => exact haborted
  · intro cues e f past deeds place a h hplace ha hleave
    have hreturn := fun running => exists_step?_left ha running hplace hleave
    have hleft := hleave
    rw [step?_leave hplace] at hleft
    obtain ⟨rfl, rfl⟩ := Prod.mk.inj (Option.some.inj hleft)
    have hstage := Session.sameStage_told place .stop (e.session.detach layerId)
    refine ⟨?_, ?_, hreturn, ?_⟩
    · exact hstage.attached ▸ Session.lookup_detach layerId e.session
    · intro other hother
      exact hstage.attached ▸ Session.lookup_detached hother
    · intro meanwhile g r later deeds b hg hb hstopped hr
      have hended : b.isRunning = false := by simp [Agent.isRunning, hstopped]
      have hmore : e.trace? (.leave layerId :: meanwhile) = some (g, later) :=
        trace?_cons.2 ⟨_, _, later, hleave, hg, rfl⟩
      obtain ⟨hattached, hdrops⟩ := step?_left hb hstopped hr
      refine ⟨closes_of_ended h hmore ha hb hended, isOver_of_left hr, hdrops, ?_, ?_⟩
      · intro hcues
        rw [hattached]
        refine trace?_induction_of (P := fun e => e.session.attached.lookup layerId = none)
          (p := fun cue => !cue.attaches layerId) ?_ ?_ ?_ hg
        · intro e f cue deeds hcue he hstep
          exact not_attached_step? (by simpa using hcue) he hstep
        · intro cue hcue
          simp [hcues cue hcue]
        · exact hstage.attached ▸ Session.lookup_detach layerId e.session
      · intro hcues
        refine trace?_induction_of (P := fun f => f.session.content = e.session.content)
          (p := fun cue => !cue.isCall) ?_ ?_ hstage.content hg
        · intro f g cue deeds hcue hf hstep
          exact (content_step? (by simpa using hcue) hstep).trans hf
        · intro cue hcue
          simp [hcues cue hcue]

/-- Entries of two layers and of all of them. -/
abbrev entwined : Content :=
  ⟨.empty, .empty, [.ofLayer (.id "L"), .ofLayer .any, .ofLayer (.id "M"), .ofLayer (.id "L")]⟩

abbrev slowAnswers : List (Text × List Answer) := [("L", [{ latency := 2000 }])]

/-- A layer is removed while its first request is in flight, by a session that serves its turns in
order and while whatever else happens. -/
theorem removal_touches_only_layer_of_loading :
    (∃ s t during, Session.Arises { debounce := 0 } entwined slowAnswers s ∧
      s.removeLayer "L" = (t, .ok 2) ∧ t.log = s.log ++ during ++ [⟨"L", .clear⟩] ∧
      ⟨"L", .abort 1⟩ ∈ during ∧ t.attached.lookup ("L" : Text) = none ∧
      t.content.entries = [.ofLayer .any, .ofLayer (.id "M")]) ∧
    ∃ e f g r past later, (start { debounce := 0 } entwined slowAnswers).trace?
        [.attach (plainSource "L"), .act 0 .obey, .act 0 .expire] = some (e, past) ∧
      e.step? (.leave "L") = some (f, []) ∧ IsOutstanding (deedsOf 0 past) 1 ∧
      f.trace? [.pass 10, .act 0 .obey] = some (g, later) ∧
      g.step? (.left "L" 0) = some (r, []) ∧ .did (.abort 1) ∈ deedsOf 0 later ∧
      r.session.content.entries = [.ofLayer .any, .ofLayer (.id "M")] := by
  obtain ⟨-, hserved, hanyhow⟩ :=
    removal_touches_only_layer { debounce := 0 } entwined slowAnswers "L"
  constructor
  · let s : Session := Session.settle (Session.attach (plainSource "L")
      { pace := { debounce := 0 }, content := entwined, answers := slowAnswers })
    have harises : Session.Arises { debounce := 0 } entwined slowAnswers s :=
      .settle (.attach (plainSource "L") .start)
    let u := ((s.detach "L").shutDownAgent 0).1
    have hevaluated : (s.agents[0]?.any (·.flight == (true, 1)) &&
        s.attached.lookup ("L" : Text) == some 0 &&
        u.agents[0]?.any (·.condition == .stopped)) = true := by
      simp only [u, s]
      decide +kernel
    simp only [Option.any_eq_true, Bool.and_eq_true, beq_iff_eq] at hevaluated
    obtain ⟨⟨⟨a, ha, hflight⟩, hplace⟩, b, hb, hstopped⟩ := hevaluated
    obtain ⟨t, during, hremoved, hnone, -, hlog, haborted, hcontent, hdrops⟩ :=
      hserved s 0 a b harises hplace ha hb hstopped
    rw [hflight] at haborted
    refine ⟨s, t, during, harises, hremoved, ?_, haborted rfl, hnone, ?_⟩
    · rw [hdrops.log, hlog]
    · rw [hdrops.entries, hcontent]
      simp only [s]
      decide +kernel
  · have hevaluated : ((start { debounce := 0 } entwined slowAnswers).trace?
        [.attach (plainSource "L"), .act 0 .obey, .act 0 .expire]).any (fun r =>
      (r.1.session.agents[0]?.any (·.flight == (true, 1))) &&
      r.1.session.attached.lookup ("L" : Text) == some 0 &&
      (r.1.step? (.leave "L")).any fun r' => r'.2.isEmpty &&
      (r'.1.trace? [.pass 10, .act 0 .obey]).any fun q =>
      (q.1.session.agents[0]?.any (·.condition == .stopped)) &&
      deedsOf 0 q.2 == [.obeyed .stop, .did (.abort 1)] &&
      q.1.session.content.entries == entwined.entries &&
      (q.1.step? (.left "L" 0)).any fun q' => q'.2.isEmpty) = true := by
      decide +kernel
    simp only [Option.any_eq_true, Prod.exists, Bool.and_eq_true, beq_iff_eq, List.isEmpty_iff]
      at hevaluated
    obtain ⟨e, past, h, ⟨⟨a, ha, hflight⟩, hplace⟩, f, deeds, hleave, rfl, g, later, hg,
      ⟨⟨⟨b, hb, hstopped⟩, hdeeds⟩, hentries⟩, r, more, hr, rfl⟩ := hevaluated
    obtain ⟨-, -, -, hwait⟩ := hanyhow _ e f past [] 0 a h hplace ha hleave
    obtain ⟨hcloses, -, hdrops, -, -⟩ := hwait _ g r later [] b hg hb hstopped hr
    have hopen : IsOutstanding (deedsOf 0 past) 1 :=
      (isOutstanding_iff h ha 1).2 ⟨congrArg Prod.fst hflight, (congrArg Prod.snd hflight).symm⟩
    refine ⟨e, f, g, r, past, later, h, hleave, hopen, hg, hr, ?_, ?_⟩
    · refine (hcloses.1 1 hopen).resolve_right ?_
      rintro ⟨reply, htook⟩
      simp [hdeeds] at htook
    · rw [hdrops.entries, hentries]
      decide

/-- A time window that ends within the last second of the calendar makes an agent crash that sends
whole seconds. Removing its layer then fails: the layer is given up and cannot be removed any more,
but what was delivered for it is not dropped, and its entries stay. -/
theorem removal_leaves_results_of_crashed :
    let w : TimeWindow := ⟨"t", none, ⟨0, 0, by decide, by decide, by decide, by decide⟩,
      ⟨8210266876799, 1, by decide, by decide, by decide, by decide⟩, by decide⟩
    let loaded := Session.settle (Session.attach (plainSource "L")
      { pace := { debounce := 0, wholeSeconds := true }, content := entwined, answers := [] })
    ∃ s t, loaded.tell "L" (.setWindow (some w)) = .ok s ∧
      s.settle.removeLayer "L" = (t, .error (.closed "L")) ∧
      t.attached.lookup ("L" : Text) = none ∧
      t.removeLayer "L" = (t, .error (.unknownSource "L")) ∧
      t.content.entries = entwined.entries ∧
      t.log.getLast?.map LogEntry.effect = some (.deliver 1 "L#1") := by
  intro w loaded
  have hevaluated : (loaded.tell "L" (.setWindow (some w))).toOption.any (fun s =>
      let u := ((s.settle.detach "L").shutDownAgent 0).1
      s.settle.attached.lookup ("L" : Text) == some 0 &&
        u.agents[0]?.any (·.condition == .crashed) &&
        u.content.entries == entwined.entries &&
        u.log.getLast?.map LogEntry.effect == some (.deliver 1 "L#1")) = true := by
    simp only [loaded, w]
    decide +kernel
  cases htold : loaded.tell "L" (.setWindow (some w)) with
  | error fault =>
    rw [htold] at hevaluated
    cases hevaluated
  | ok s =>
    simp only [htold, Except.toOption, Option.any_some, Option.any_eq_true, Bool.and_eq_true,
      beq_iff_eq] at hevaluated
    obtain ⟨⟨⟨hplace, b, hb, hcrashed⟩, hentries⟩, hlog⟩ := hevaluated
    have hnone : ((s.settle.detach "L").shutDownAgent 0).1.attached.lookup ("L" : Text) = none := by
      rw [Session.attached_shutDownAgent]
      exact Session.lookup_detach "L" s.settle
    exact ⟨s, _, rfl, Session.removeLayer_of_crashed hplace hb hcrashed, hnone,
      Session.removeLayer_of_not_attached hnone, hentries, hlog⟩

end Ensemble
end MapQuery
