import MapQuery.Proofs.Schedule.PendingWindow

/-!
# What an agent has done

The deeds of an agent are the commands that it obeyed, the replies that it took up and its effects,
in the order in which they happened. Whatever a move does to a refresher is one of few changes, each
with deeds of its own.
-/

set_option autoImplicit false

namespace MapQuery

/-- Something that an agent has done. -/
inductive Deed where
  | obeyed (command : Command)
  | took (response : Response)
  | did (effect : Effect)
  deriving DecidableEq

def Deed.effect? : Deed → Option Effect
  | .did e => some e
  | .obeyed _ | .took _ => none

namespace Scene

/-- What the agent takes up in a move. -/
def taken (s : Scene) : Move → List Deed
  | .obey => s.agent.commands.head?.toList.map .obeyed
  | .receive => s.agent.responses.head?.toList.map .took
  | _ => []

/-- The deeds of a move with the given effects. -/
def deeds (s : Scene) (m : Move) (effects : List Effect) : List Deed :=
  s.taken m ++ effects.map .did

/-- The scene after moves one after another and the deeds in them. -/
def trace? (s : Scene) : List Move → Option (Scene × List Deed)
  | [] => some (s, [])
  | m :: rest => do
    let (t, effects) ← s.step? m
    let (u, later) ← t.trace? rest
    return (u, s.deeds m effects ++ later)

theorem trace?_cons {s u : Scene} {m : Move} {moves : List Move} {past : List Deed} :
    s.trace? (m :: moves) = some (u, past) ↔ ∃ t effects later,
      s.step? m = some (t, effects) ∧ t.trace? moves = some (u, later) ∧
      past = s.deeds m effects ++ later := by
  simp only [trace?, Option.bind_eq_bind, Option.bind_eq_some_iff, Prod.exists]
  constructor
  · rintro ⟨t, effects, ht, v, later, hv, h⟩
    simp only [Option.pure_def, Option.some.injEq, Prod.mk.injEq] at h
    obtain ⟨rfl, rfl⟩ := h
    exact ⟨t, effects, later, ht, hv, rfl⟩
  · rintro ⟨t, effects, later, ht, hu, rfl⟩
    exact ⟨t, effects, ht, u, later, hu, rfl⟩

theorem effects_deeds (s : Scene) (m : Move) (effects : List Effect) :
    (s.deeds m effects).filterMap Deed.effect? = effects := by
  have hdone : (effects.map Deed.did).filterMap Deed.effect? = effects := by
    rw [List.filterMap_map]
    exact List.filterMap_some
  have htaken : (s.taken m).filterMap Deed.effect? = [] := by
    apply List.filterMap_eq_nil_iff.2
    intro d hd
    cases m with
    | obey =>
      obtain ⟨command, -, rfl⟩ := List.mem_map.1 hd
      rfl
    | receive =>
      obtain ⟨response, -, rfl⟩ := List.mem_map.1 hd
      rfl
    | pass | edit | tell | respond | recover | hear | expire => cases hd
  rw [deeds, List.filterMap_append, htaken, hdone]
  rfl

/-- The effects among the deeds of a run are all that was done in it. -/
theorem run?_eq_map_trace? (s : Scene) (moves : List Move) :
    s.run? moves = (s.trace? moves).map fun r => (r.1, r.2.filterMap Deed.effect?) := by
  induction moves generalizing s with
  | nil => rfl
  | cons m rest ih =>
    simp only [run?, trace?]
    cases hm : s.step? m with
    | none => rfl
    | some r =>
      obtain ⟨t, effects⟩ := r
      simp only [Option.bind_eq_bind, Option.bind_some, ih]
      cases t.trace? rest with
      | none => rfl
      | some v => simp [effects_deeds]

theorem run?_of_trace? {s t : Scene} {moves : List Move} {past : List Deed}
    (h : s.trace? moves = some (t, past)) :
    s.run? moves = some (t, past.filterMap Deed.effect?) := by
  rw [run?_eq_map_trace?, h]
  rfl

/-- What every move keeps holds after every run; the deeds so far may enter into it. -/
theorem trace?_induction {P : Scene → List Deed → Prop}
    (hstep : ∀ {s t : Scene} {m : Move} {past : List Deed} {effects : List Effect},
      P s past → s.step? m = some (t, effects) → P t (past ++ s.deeds m effects))
    {s t : Scene} {moves : List Move} (past : List Deed) {later : List Deed} (h : P s past)
    (htrace : s.trace? moves = some (t, later)) : P t (past ++ later) := by
  induction moves generalizing s past later with
  | nil =>
    obtain ⟨rfl, rfl⟩ : s = t ∧ [] = later := by simpa [trace?] using htrace
    simpa using h
  | cons m rest ih =>
    obtain ⟨u, effects, more, hu, hrest, rfl⟩ := trace?_cons.1 htrace
    rw [← List.append_assoc]
    exact ih _ (hstep h hu) hrest

end Scene

namespace Refresher

/-- What can become of a refresher in a move that does not stop it, with the deeds of that move. -/
inductive Does (now : Nat) (c : Content) (r : Refresher) : Refresher → List Deed → Prop
  | rested : Does now c r r []
  /-- The layer is to be shown or hidden as it is already. -/
  | unmoved (visible : Bool) (h : r.status.visible = visible) :
      Does now c r r [.obeyed (.setVisible visible)]
  /-- The reply is not for the request in flight. -/
  | ignored (response : Response)
      (h : r.status.inFlight = true → response.generation ≠ r.status.generation) :
      Does now c r r [.took response]
  /-- A refresh is asked for, or a change that may matter is heard of. -/
  | scheduled (deeds : List Deed) (h : deeds = [] ∨ deeds = [.obeyed .refresh]) :
      Does now c r (r.schedule now) deeds
  | turned (visible : Bool) (h : r.status.visible ≠ visible) :
      Does now c r (schedule now { r with status := { r.status with visible := visible } })
        [.obeyed (.setVisible visible)]
  | retimed (window : Option TimeWindow) :
      Does now c r (r.setWindow now window) [.obeyed (.setWindow window)]
  | completed (reply : Reply) (h : r.status.inFlight = true) :
      Does now c r r.completed
        (.took ⟨r.status.generation, reply⟩ :: (replyEffects r.status.generation reply).map .did)
  | expired {result : Refresher × List Effect} (hdue : r.deadline.any (· ≤ now) = true)
      (h : Expiry now c r result) : Does now c r result.1 (result.2.map .did)

/-- Aborting leaves alone what a refresher was set to. -/
theorem settings_abort (r : Refresher) :
    r.abort.1.source = r.source ∧ r.abort.1.pace = r.pace ∧ r.abort.1.window = r.window ∧
      r.abort.1.status.visible = r.status.visible := by
  unfold abort
  split <;> exact ⟨rfl, rfl, rfl, rfl⟩

/-- The end of a debounce window leaves it alone too. -/
theorem settings_expiry {now : Nat} {c : Content} {r : Refresher}
    {result : Refresher × List Effect} (h : Expiry now c r result) :
    result.1.source = r.source ∧ result.1.pace = r.pace ∧ result.1.window = r.window ∧
      result.1.status.visible = r.status.visible := by
  cases h with
  | rearmed | postponed => exact ⟨rfl, rfl, rfl, rfl⟩
  | closed | issued => exact settings_abort r.disarmed

theorem source_does {now : Nat} {c : Content} {r r' : Refresher} {deeds : List Deed}
    (h : r.Does now c r' deeds) : r'.source = r.source ∧ r'.pace = r.pace := by
  cases h with
  | rested | unmoved | ignored | scheduled | turned | retimed | completed => exact ⟨rfl, rfl⟩
  | expired _ hexpiry =>
    obtain ⟨hsource, hpace, -⟩ := settings_expiry hexpiry
    exact ⟨hsource, hpace⟩

end Refresher

namespace Scene

/-- What a move leads to, with the deeds that it leaves behind. -/
inductive Leaves (s : Scene) : Move → Scene → List Deed → Prop
  | passed (milliseconds : Nat) :
      Leaves s (.pass milliseconds) { s with now := s.now + milliseconds } []
  | edited (e : Edit) : Leaves s (.edit e) (s.edited e) []
  | told (command : Command) (running : s.agent.isRunning = true) :
      Leaves s (.tell command) { s with agent := s.agent.tell command } []
  | responded (response : Response) :
      Leaves s (.respond response) { s with agent := s.agent.respond response } []
  | obeyed (command : Command) (rest : List Command) (running : s.agent.isRunning = true)
      (h : s.agent.commands = command :: rest) :
      Leaves s .obey
        { s with agent := (Agent.obey s.now { s.agent with commands := rest } command).1 }
        (.obeyed command ::
          (Agent.obey s.now { s.agent with commands := rest } command).2.map .did)
  | received (response : Response) (rest : List Response) (running : s.agent.isRunning = true)
      (h : s.agent.responses = response :: rest) :
      Leaves s .receive
        { s with agent := (Agent.receive response { s.agent with responses := rest }).1 }
        (.took response ::
          (Agent.receive response { s.agent with responses := rest }).2.map .did)
  | recovered (running : s.agent.isRunning = true) (h : s.agent.lagged = true) :
      Leaves s .recover { s with agent := s.agent.recover s.now } []
  | heard (change : Change) (rest : List Change) (running : s.agent.isRunning = true)
      (h : s.agent.unread = change :: rest) (hlagged : s.agent.lagged = false) :
      Leaves s .hear
        { s with agent := Agent.hear s.now s.content change { s.agent with unread := rest } } []
  | expired (running : s.agent.isRunning = true)
      (hdue : s.agent.refresher.deadline.any (· ≤ s.now) = true) :
      Leaves s .expire { s with agent := (s.agent.expire s.now s.content).1 }
        ((s.agent.expire s.now s.content).2.map .did)

theorem leaves_of_step? {s t : Scene} {m : Move} {effects : List Effect}
    (h : s.step? m = some (t, effects)) : s.Leaves m t (s.deeds m effects) := by
  cases m with
  | pass milliseconds =>
    obtain ⟨rfl, rfl⟩ := Prod.mk.inj (Option.some.inj h)
    exact .passed milliseconds
  | edit e =>
    obtain ⟨rfl, rfl⟩ := Prod.mk.inj (Option.some.inj h)
    exact .edited e
  | tell command =>
    simp only [step?] at h
    split at h
    · next running =>
      obtain ⟨rfl, rfl⟩ := Prod.mk.inj (Option.some.inj h)
      exact .told command running
    · cases h
  | respond response =>
    obtain ⟨rfl, rfl⟩ := Prod.mk.inj (Option.some.inj h)
    exact .responded response
  | obey =>
    simp only [step?, act?] at h
    split at h
    · next running =>
      split at h
      · cases h
      · next command rest hcommands =>
        obtain ⟨rfl, rfl⟩ := Prod.mk.inj (Option.some.inj h)
        have htaken : s.taken .obey = [.obeyed command] := by simp [taken, hcommands]
        rw [deeds, htaken]
        exact .obeyed command rest running hcommands
    · cases h
  | receive =>
    simp only [step?, act?] at h
    split at h
    · next running =>
      split at h
      · cases h
      · next response rest hresponses =>
        obtain ⟨rfl, rfl⟩ := Prod.mk.inj (Option.some.inj h)
        have htaken : s.taken .receive = [.took response] := by simp [taken, hresponses]
        rw [deeds, htaken]
        exact .received response rest running hresponses
    · cases h
  | recover =>
    simp only [step?, act?] at h
    split at h
    · next running =>
      split at h
      · next hlagged =>
        obtain ⟨rfl, rfl⟩ := Prod.mk.inj (Option.some.inj h)
        exact .recovered running hlagged
      · cases h
    · cases h
  | hear =>
    simp only [step?, act?] at h
    split at h
    · next running =>
      split at h
      · cases h
      · next hlagged =>
        split at h
        · cases h
        · next change rest hunread =>
          obtain ⟨rfl, rfl⟩ := Prod.mk.inj (Option.some.inj h)
          exact .heard change rest running hunread (Bool.eq_false_iff.2 hlagged)
    · cases h
  | expire =>
    simp only [step?, act?] at h
    split at h
    · next running =>
      split at h
      · next hdue =>
        obtain ⟨rfl, rfl⟩ := Prod.mk.inj (Option.some.inj h)
        exact .expired running hdue
      · cases h
    · cases h

/-- What a move does to the refresher: it goes on, or it is stopped. -/
def Changes (s t : Scene) (deeds : List Deed) : Prop :=
  s.agent.refresher.Does s.now s.content t.agent.refresher deeds ∨
    t.agent.isRunning = false ∧ t.agent.refresher = s.agent.refresher.abort.1 ∧
      deeds = .obeyed .stop :: s.agent.refresher.abort.2.map .did

theorem changes_obey {s : Scene} {command : Command} {rest : List Command} :
    let r := Agent.obey s.now { s.agent with commands := rest } command
    s.Changes { s with agent := r.1 } (.obeyed command :: r.2.map .did) := by
  intro r
  cases command with
  | refresh => exact .inl (.scheduled _ (.inr rfl))
  | setWindow window => exact .inl (.retimed window)
  | stop => exact .inr ⟨rfl, rfl, rfl⟩
  | setVisible visible =>
    left
    show s.agent.refresher.Does _ _ (s.agent.refresher.setVisible s.now visible) _
    unfold Refresher.setVisible
    split
    · next hsame => exact .unmoved visible hsame
    · next hturned => exact .turned visible hturned

theorem changes_receive {s : Scene} {response : Response} {rest : List Response} :
    let r := Agent.receive response { s.agent with responses := rest }
    s.Changes { s with agent := r.1 } (.took response :: r.2.map .did) := by
  intro r
  left
  obtain ⟨generation, reply⟩ := response
  rcases s.agent.refresher.complete_cases generation reply with
    ⟨hflight, rfl, hcomplete⟩ | ⟨hstale, hcomplete⟩
  · have hr : r = ({ s.agent with responses := rest, refresher := s.agent.refresher.completed },
        Refresher.replyEffects s.agent.refresher.status.generation reply) := by
      simp only [r, Agent.receive, hcomplete]
    rw [hr]
    exact .completed reply hflight
  · have hr : r = ({ s.agent with responses := rest }, []) := by
      simp only [r, Agent.receive, hcomplete]
    rw [hr]
    exact .ignored ⟨generation, reply⟩ hstale

theorem changes_expire {s : Scene} (hdue : s.agent.refresher.deadline.any (· ≤ s.now) = true) :
    let r := s.agent.expire s.now s.content
    s.Changes { s with agent := r.1 } (r.2.map .did) := by
  intro r
  left
  cases hexpire : s.agent.refresher.expire s.now s.content with
  | none =>
    have hr : r = (s.agent.finish .crashed, []) := by simp only [r, Agent.expire, hexpire]
    rw [hr]
    exact .rested
  | some result =>
    have hr : r = ({ s.agent with refresher := result.1 }, result.2) := by
      simp only [r, Agent.expire, hexpire]
    rw [hr]
    exact .expired hdue (Refresher.expiry_of_expire hexpire)

/-- Everything that a move can do to the refresher. -/
theorem changes_of_step? {s t : Scene} {m : Move} {effects : List Effect}
    (h : s.step? m = some (t, effects)) : s.Changes t (s.deeds m effects) := by
  have hleaves := leaves_of_step? h
  generalize s.deeds m effects = deeds at hleaves ⊢
  cases hleaves with
  | passed | told => exact .inl .rested
  | edited e =>
    left
    rw [refresher_edited]
    exact .rested
  | responded response =>
    left
    show s.agent.refresher.Does _ _ (s.agent.respond response).refresher _
    rw [Agent.refresher_respond]
    exact .rested
  | obeyed => exact changes_obey
  | received => exact changes_receive
  | recovered => exact .inl (.scheduled [] (.inl rfl))
  | heard change =>
    left
    show s.agent.refresher.Does _ _ (s.agent.refresher.hear s.now s.content change) []
    unfold Refresher.hear
    split
    · exact .scheduled [] (.inl rfl)
    · exact .rested
  | expired _ hdue => exact changes_expire hdue

theorem source_trace? {source : DataSource} {pace : Pace} {content : Content} {now : Nat}
    {moves : List Move} {s : Scene} {past : List Deed}
    (h : (start source pace content now).trace? moves = some (s, past)) :
    s.agent.refresher.source = source ∧ s.agent.refresher.pace = pace := by
  apply trace?_induction (P := fun s _ =>
    s.agent.refresher.source = source ∧ s.agent.refresher.pace = pace) _ [] ⟨rfl, rfl⟩ h
  intro s t m _ effects hs hstep
  rcases changes_of_step? hstep with hdoes | ⟨-, hrefresher, -⟩
  · obtain ⟨hsource, hpace⟩ := Refresher.source_does hdoes
    exact ⟨hsource.trans hs.1, hpace.trans hs.2⟩
  · obtain ⟨hsource, hpace, -⟩ := Refresher.settings_abort s.agent.refresher
    rw [hrefresher]
    exact ⟨hsource.trans hs.1, hpace.trans hs.2⟩

theorem does_of_step? {s t : Scene} {m : Move} {effects : List Effect}
    (h : s.step? m = some (t, effects)) (running : t.agent.isRunning = true) :
    s.agent.isRunning = true ∧
      s.agent.refresher.Does s.now s.content t.agent.refresher (s.deeds m effects) := by
  refine ⟨isRunning_of_step h running, ?_⟩
  rcases changes_of_step? h with hdoes | ⟨hstopped, -⟩
  · exact hdoes
  · rw [running] at hstopped
    cases hstopped

/-- What a refresher keeps whatever it does holds as long as its agent runs. -/
theorem running_induction {P : Refresher → Prop}
    (hdoes : ∀ {now : Nat} {c : Content} {r r' : Refresher} {deeds : List Deed},
      P r → r.Does now c r' deeds → P r')
    {s t : Scene} {moves : List Move} {past : List Deed} (h : P s.agent.refresher)
    (htrace : s.trace? moves = some (t, past)) (running : t.agent.isRunning = true) :
    P t.agent.refresher := by
  apply trace?_induction (P := fun s _ => s.agent.isRunning = true → P s.agent.refresher) _ []
    (fun _ => h) htrace running
  intro s t m _ effects hs hstep running
  obtain ⟨hrunning, hchange⟩ := does_of_step? hstep running
  exact hdoes (hs hrunning) hchange

end Scene
end MapQuery
