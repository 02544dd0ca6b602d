import MapQuery.Proofs.Schedule.History
import MapQuery.Schedule.Session

/-!
# Several agents among whatever happens

An ensemble is a session in which the agents act in any order. Layers are attached and removed, the
content is edited and the clock goes on, and in between the agents take up what waits for them,
whichever of them and however much at a time. What happens to one agent is a run of its own scene.
-/

set_option autoImplicit false

namespace MapQuery

/-- A session and the removals of layers that wait for an agent to end. -/
structure Ensemble where
  session : Session
  leaving : List (Text × Nat) := []

/-- What can happen next. -/
inductive Cue where
  | pass (milliseconds : Nat)
  | edit (e : Edit)
  | attach (source : DataSource)
  /-- The agent of an attached layer is told something; to stop is not for others to tell it. -/
  | tell (layerId : Text) (command : Command)
  /-- A layer is to be removed, and its agent is told to stop. -/
  | leave (layerId : Text)
  /-- The agent at a place has ended, and the layer is removed. -/
  | left (layerId : Text) (place : Nat)
  /-- A reply is brought to the agent at a place, whatever request it is for. -/
  | respond (place : Nat) (response : Response)
  /-- The agent at a place takes up something. -/
  | act (place : Nat) (m : Move)

namespace Session

/-- The scene of an agent of a session. -/
def scene (s : Session) (a : Agent) : Scene := ⟨s.now, s.content, a⟩

/-- The agent at a place takes up something, if it can. -/
def act? (place : Nat) (m : Move) (s : Session) : Option (Session × List Deed) :=
  match s.agents[place]?.filter Agent.isRunning with
  | none => none
  | some a => ((s.scene a).act? m).map fun r =>
    (perform place a.layerId r.2 { s with agents := s.agents.set place r.1 },
      (s.scene a).deeds m r.2)

/-- The end of a removal. Nothing is removed if the agent had crashed. -/
def remove (layerId : Text) (a : Agent) (s : Session) : Session :=
  if a.condition = .crashed then s else (s.note layerId .clear).edit (.dropLayer layerId)

end Session

namespace Ensemble

def start (pace : Pace) (content : Content) (answers : List (Text × List Answer)) : Ensemble :=
  ⟨{ pace := pace, content := content, answers := answers }, []⟩

/-- The ensemble after something has happened, and the deeds in it by the places of their agents. A
call that fails leaves everything as it is. -/
def step? (e : Ensemble) : Cue → Option (Ensemble × List (Nat × Deed))
  | .pass milliseconds =>
    some ({ e with session := { e.session with now := e.session.now + milliseconds } }, [])
  | .edit edit => some ({ e with session := e.session.edit edit }, [])
  | .attach source => some ({ e with session := e.session.attach source }, [])
  | .tell layerId command =>
    if command = .stop then none
    else some ({ e with session := (e.session.tell layerId command).toOption.getD e.session }, [])
  | .leave layerId =>
    match e.session.placeOf layerId with
    | .error _ => some (e, [])
    | .ok place =>
      some (⟨(e.session.detach layerId).stopAgent place, (layerId, place) :: e.leaving⟩, [])
  | .left layerId place =>
    match e.session.agents[place]? with
    | none => none
    | some a =>
      if (layerId, place) ∈ e.leaving ∧ a.isRunning = false then
        some (⟨e.session.remove layerId a, e.leaving.erase (layerId, place)⟩, [])
      else none
  | .respond place response => some ({ e with session := e.session.bring place response }, [])
  | .act place m => (e.session.act? place m).map fun r =>
    ({ e with session := r.1 }, r.2.map (place, ·))

/-- The ensemble after a list of cues and the deeds in it. -/
def trace? (e : Ensemble) : List Cue → Option (Ensemble × List (Nat × Deed))
  | [] => some (e, [])
  | cue :: rest => do
    let (f, deeds) ← e.step? cue
    let (g, later) ← f.trace? rest
    return (g, deeds ++ later)

theorem trace?_cons {e g : Ensemble} {cue : Cue} {cues : List Cue} {past : List (Nat × Deed)} :
    e.trace? (cue :: cues) = some (g, past) ↔ ∃ f deeds later,
      e.step? cue = some (f, deeds) ∧ f.trace? cues = some (g, later) ∧ past = deeds ++ later := by
  simp only [trace?, Option.bind_eq_bind, Option.bind_eq_some_iff, Prod.exists]
  constructor
  · rintro ⟨f, deeds, hf, g', later, hg, h⟩
    simp only [Option.pure_def, Option.some.injEq, Prod.mk.injEq] at h
    obtain ⟨rfl, rfl⟩ := h
    exact ⟨f, deeds, later, hf, hg, rfl⟩
  · rintro ⟨f, deeds, later, hf, hg, rfl⟩
    exact ⟨f, deeds, hf, g, later, hg, rfl⟩

/-- What every cue keeps holds after every run; the deeds so far may enter into it. -/
theorem trace?_induction {P : Ensemble → List (Nat × Deed) → Prop}
    (hstep : ∀ {e f : Ensemble} {cue : Cue} {past deeds : List (Nat × Deed)},
      P e past → e.step? cue = some (f, deeds) → P f (past ++ deeds))
    {e g : Ensemble} {cues : List Cue} (past : List (Nat × Deed)) {later : List (Nat × Deed)}
    (h : P e past) (htrace : e.trace? cues = some (g, later)) : P g (past ++ later) := by
  induction cues generalizing e past later with
  | nil =>
    obtain ⟨rfl, rfl⟩ : e = g ∧ [] = later := by simpa [trace?] using htrace
    simpa using h
  | cons cue rest ih =>
    obtain ⟨f, deeds, more, hf, hrest, rfl⟩ := trace?_cons.1 htrace
    rw [← List.append_assoc]
    exact ih _ (hstep h hf) hrest

/-- The deeds of the agent at a place. -/
def deedsOf (place : Nat) (past : List (Nat × Deed)) : List Deed :=
  (past.filter (·.1 == place)).map Prod.snd

variable {place : Nat} {past later : List (Nat × Deed)}

@[simp] theorem deedsOf_append :
    deedsOf place (past ++ later) = deedsOf place past ++ deedsOf place later := by
  simp [deedsOf]

@[simp] theorem deedsOf_map_self (deeds : List Deed) :
    deedsOf place (deeds.map (place, ·)) = deeds := by
  simp [deedsOf, List.filter_map, Function.comp_def]

theorem deedsOf_map_of_ne {other : Nat} (h : other ≠ place) (deeds : List Deed) :
    deedsOf place (deeds.map (other, ·)) = [] := by
  simp [deedsOf, List.filter_map, Function.comp_def, h]

end Ensemble

/-! ## What the calls of a session do -/

namespace Session

variable {place : Nat} {s t u : Session}

/-- Whether two sessions differ in nothing that an agent can see of others. -/
structure SameStage (s t : Session) : Prop where
  pace : t.pace = s.pace
  now : t.now = s.now
  content : t.content = s.content
  attached : t.attached = s.attached

theorem SameStage.trans (h : s.SameStage t) (h' : t.SameStage u) : s.SameStage u :=
  ⟨h'.pace.trans h.pace, h'.now.trans h.now, h'.content.trans h.content,
    h'.attached.trans h.attached⟩

theorem SameStage.scene (h : s.SameStage t) (a : Agent) : t.scene a = s.scene a := by
  simp only [Session.scene, h.now, h.content]

/-- Effects change neither the agents nor what they can see. -/
theorem agents_perform (place : Nat) (layerId : Text) (effects : List Effect) (s : Session) :
    (s.perform place layerId effects).agents = s.agents ∧
      s.SameStage (s.perform place layerId effects) := by
  induction effects generalizing s with
  | nil => exact ⟨rfl, rfl, rfl, rfl, rfl⟩
  | cons e rest ih =>
    have hfirst : (s.perform place layerId [e]).agents = s.agents ∧
        s.SameStage (s.perform place layerId [e]) := by
      cases e <;> exact ⟨rfl, rfl, rfl, rfl, rfl⟩
    obtain ⟨hagents, hstage⟩ := ih (s.perform place layerId [e])
    exact ⟨hagents.trans hfirst.1, hfirst.2.trans hstage⟩

theorem agents_bring (place : Nat) (response : Response) (s : Session) :
    (s.bring place response).agents = s.agents.modify place (Agent.respond response) ∧
      s.SameStage (s.bring place response) :=
  ⟨rfl, rfl, rfl, rfl, rfl⟩

theorem stage_edit (e : Edit) (s : Session) : (s.edit e).pace = s.pace ∧ (s.edit e).now = s.now ∧
    (s.edit e).content = s.content.edit e ∧ (s.edit e).attached = s.attached := by
  unfold edit
  split <;> exact ⟨rfl, rfl, rfl, rfl⟩

theorem act?_cases {m : Move} {r : Session × List Deed} (h : s.act? place m = some r) :
    ∃ a b effects, s.agents[place]? = some a ∧ a.isRunning = true ∧
      (s.scene a).act? m = some (b, effects) ∧ r.1.agents = s.agents.set place b ∧
      s.SameStage r.1 ∧ r.2 = (s.scene a).deeds m effects := by
  unfold act? at h
  cases ha : s.agents[place]?.filter Agent.isRunning with
  | none => simp [ha] at h
  | some a =>
    simp only [ha] at h
    obtain ⟨⟨b, effects⟩, hact, rfl⟩ := Option.map_eq_some_iff.1 h
    obtain ⟨hplace, running⟩ := Option.filter_eq_some_iff.1 ha
    obtain ⟨hagents, hstage⟩ := agents_perform place a.layerId effects
      { s with agents := s.agents.set place b }
    exact ⟨a, b, effects, hplace, running, hact, hagents,
      ⟨hstage.pace, hstage.now, hstage.content, hstage.attached⟩, rfl⟩

/-- Leaves a command for an agent unless it has ended. -/
def reach (command : Command) (a : Agent) : Agent :=
  if a.isRunning then a.tell command else a

/-- The agent at a place is told something, if it still runs. -/
def told (place : Nat) (command : Command) (s : Session) : Session :=
  (s.tellAgent place command).toOption.getD s

theorem sameStage_told (place : Nat) (command : Command) (s : Session) :
    s.SameStage (s.told place command) := by
  unfold told tellAgent
  split
  · exact ⟨rfl, rfl, rfl, rfl⟩
  · split <;> exact ⟨rfl, rfl, rfl, rfl⟩

theorem getElem?_told (place other : Nat) (command : Command) (s : Session) :
    (s.told other command).agents[place]? =
      s.agents[place]?.map fun a => if other = place then reach command a else a := by
  unfold told tellAgent
  by_cases h : other = place
  · subst h
    simp only [if_true]
    cases ha : s.agents[other]? with
    | none => exact ha
    | some a =>
      have hplace := (List.getElem?_eq_some_iff.1 ha).1
      cases running : a.isRunning with
      | false =>
        simp only [Option.map_some, reach, running, Bool.false_eq_true, if_false]
        exact ha
      | true =>
        simp only [Option.map_some, reach, running, if_true]
        exact List.getElem?_set_self hplace
  · simp only [h, if_false, Option.map_id_fun', id]
    split
    · rfl
    · split
      · exact List.getElem?_set_ne h
      · rfl

theorem tell_eq_told (layerId : Text) (command : Command) (s : Session) :
    (s.tell layerId command).toOption.getD s = match s.attached.lookup layerId with
      | some place => s.told place command
      | none => s := by
  unfold tell placeOf
  cases s.attached.lookup layerId <;> rfl

theorem stopAgent_eq_told (place : Nat) (s : Session) : s.stopAgent place = s.told place .stop := by
  unfold stopAgent told
  cases s.tellAgent place .stop <;> rfl

/-- The session with a new agent for a layer, before an agent that the layer had is told to stop. -/
def installed (source : DataSource) (s : Session) : Session :=
  let t := ((s.spawn source).1.told s.agents.length .refresh).detach source.layer.id
  { t with attached := (source.layer.id, s.agents.length) :: t.attached }

theorem attach_eq (source : DataSource) (s : Session) :
    s.attach source = match s.attached.lookup source.layer.id with
      | some previous => (s.installed source).told previous .stop
      | none => s.installed source := by
  show (match s.attached.lookup source.layer.id with
    | some previous => (s.installed source).stopAgent previous
    | none => s.installed source) = _
  simp only [stopAgent_eq_told]

end Session

namespace Ensemble

/-- Everything that a cue can lead to. -/
inductive Leads (e : Ensemble) : Cue → Session → List (Nat × Deed) → Prop
  | passed (milliseconds : Nat) :
      Leads e (.pass milliseconds) { e.session with now := e.session.now + milliseconds } []
  | edited (edit : Edit) : Leads e (.edit edit) (e.session.edit edit) []
  | attached (source : DataSource) : Leads e (.attach source) (e.session.attach source) []
  | told (layerId : Text) (command : Command) (place : Nat)
      (hplace : e.session.attached.lookup layerId = some place) :
      Leads e (.tell layerId command) (e.session.told place command) []
  | unheard (layerId : Text) (command : Command) : Leads e (.tell layerId command) e.session []
  | dismissed (layerId : Text) (place : Nat)
      (hplace : e.session.attached.lookup layerId = some place) :
      Leads e (.leave layerId) ((e.session.detach layerId).told place .stop) []
  | unknown (layerId : Text) : Leads e (.leave layerId) e.session []
  | removed (layerId : Text) (place : Nat) (a : Agent) (ha : e.session.agents[place]? = some a)
      (hended : a.isRunning = false) : Leads e (.left layerId place) (e.session.remove layerId a) []
  | responded (place : Nat) (response : Response) :
      Leads e (.respond place response) (e.session.bring place response) []
  | acted (place : Nat) (m : Move) {r : Session × List Deed} (h : e.session.act? place m = some r) :
      Leads e (.act place m) r.1 (r.2.map (place, ·))

theorem leads_of_step? {e f : Ensemble} {cue : Cue} {deeds : List (Nat × Deed)}
    (h : e.step? cue = some (f, deeds)) : e.Leads cue f.session deeds := by
  cases cue with
  | pass milliseconds =>
    obtain ⟨rfl, rfl⟩ := Prod.mk.inj (Option.some.inj h)
    exact .passed milliseconds
  | edit edit =>
    obtain ⟨rfl, rfl⟩ := Prod.mk.inj (Option.some.inj h)
    exact .edited edit
  | attach source =>
    obtain ⟨rfl, rfl⟩ := Prod.mk.inj (Option.some.inj h)
    exact .attached source
  | tell layerId command =>
    simp only [step?, Session.tell_eq_told] at h
    split at h
    · cases h
    · obtain ⟨rfl, rfl⟩ := Prod.mk.inj (Option.some.inj h)
      cases hplace : e.session.attached.lookup layerId with
      | none => exact .unheard layerId command
      | some place => exact .told layerId command place hplace
  | leave layerId =>
    simp only [step?, Session.placeOf, Session.stopAgent_eq_told] at h
    cases hplace : e.session.attached.lookup layerId with
    | none =>
      rw [hplace] at h
      obtain ⟨rfl, rfl⟩ := Prod.mk.inj (Option.some.inj h)
      exact .unknown layerId
    | some place =>
      rw [hplace] at h
      obtain ⟨rfl, rfl⟩ := Prod.mk.inj (Option.some.inj h)
      exact .dismissed layerId place hplace
  | left layerId place =>
    simp only [step?] at h
    split at h
    · cases h
    · next a ha =>
      split at h
      · next hleaving =>
        obtain ⟨rfl, rfl⟩ := Prod.mk.inj (Option.some.inj h)
        exact .removed layerId place a ha hleaving.2
      · cases h
  | respond place response =>
    obtain ⟨rfl, rfl⟩ := Prod.mk.inj (Option.some.inj h)
    exact .responded place response
  | act place m =>
    obtain ⟨r, hact, heq⟩ := Option.map_eq_some_iff.1 h
    obtain ⟨rfl, rfl⟩ := Prod.mk.inj heq
    exact .acted place m hact

end Ensemble
end MapQuery
