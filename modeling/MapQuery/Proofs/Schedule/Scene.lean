import MapQuery.Schedule.Agent

/-!
# One agent among whatever happens

A scene is an agent, the content it reads and the time. Whatever can happen there is a move: the
clock goes on, the content is edited and the change announced, something is left for the agent, or
the agent takes up one of the things that wait for it. Nothing is said about the order, so a run is
any list of moves that are possible one after another. The turns of an agent are such runs.
-/

set_option autoImplicit false

namespace MapQuery

/-- An agent, the content it reads and the time. -/
structure Scene where
  now : Nat
  content : Content
  agent : Agent

/-- What can happen next. -/
inductive Move where
  | pass (milliseconds : Nat)
  | edit (e : Edit)
  /-- A command is left for the agent. -/
  | tell (command : Command)
  /-- A reply is left for the agent, whatever request it is for. -/
  | respond (response : Response)
  | obey
  | receive
  /-- The agent makes up for lost changes. -/
  | recover
  /-- The agent hears of the first change it has not heard of. -/
  | hear
  | expire

namespace Agent

@[simp] theorem refresher_announce (change : Change) (a : Agent) :
    (a.announce change).refresher = a.refresher := by
  unfold announce
  split
  · rfl
  · split <;> rfl

@[simp] theorem isRunning_announce (change : Change) (a : Agent) :
    (a.announce change).isRunning = a.isRunning := by
  unfold announce
  split
  · rfl
  · split <;> rfl

@[simp] theorem commands_announce (change : Change) (a : Agent) :
    (a.announce change).commands = a.commands := by
  unfold announce
  split
  · rfl
  · split <;> rfl

@[simp] theorem refresher_respond (response : Response) (a : Agent) :
    (a.respond response).refresher = a.refresher := by
  unfold respond
  split <;> rfl

@[simp] theorem isRunning_respond (response : Response) (a : Agent) :
    (a.respond response).isRunning = a.isRunning := by
  unfold respond
  split <;> rfl

@[simp] theorem commands_respond (response : Response) (a : Agent) :
    (a.respond response).commands = a.commands := by
  unfold respond
  split <;> rfl

theorem respond_of_running {response : Response} {a : Agent} (h : a.isRunning = true) :
    a.respond response = { a with responses := a.responses ++ [response] } := by
  simp [respond, h]

end Agent

namespace Scene

/-- The scene of an agent that has just been started. -/
def start (source : DataSource) (pace : Pace) (content : Content) (now : Nat) : Scene :=
  ⟨now, content, { refresher := .start source pace }⟩

def acted (s : Scene) (r : Agent × List Effect) : Scene × List Effect :=
  ({ s with agent := r.1 }, r.2)

def edited (s : Scene) (e : Edit) : Scene :=
  { s with
    content := s.content.edit e
    agent := match s.content.announced e with
      | none => s.agent
      | some change => s.agent.announce change }

@[simp] theorem refresher_edited (s : Scene) (e : Edit) :
    (s.edited e).agent.refresher = s.agent.refresher := by
  simp only [edited]
  split <;> simp

@[simp] theorem isRunning_edited (s : Scene) (e : Edit) :
    (s.edited e).agent.isRunning = s.agent.isRunning := by
  simp only [edited]
  split <;> simp

@[simp] theorem commands_edited (s : Scene) (e : Edit) :
    (s.edited e).agent.commands = s.agent.commands := by
  simp only [edited]
  split <;> simp

/-- What a running agent does in a move, if it can make the move. -/
def act? (s : Scene) : Move → Option (Agent × List Effect)
  | .obey =>
    match s.agent.commands with
    | [] => none
    | command :: rest => some (Agent.obey s.now { s.agent with commands := rest } command)
  | .receive =>
    match s.agent.responses with
    | [] => none
    | response :: rest => some (Agent.receive response { s.agent with responses := rest })
  | .recover => if s.agent.lagged then some (s.agent.recover s.now, []) else none
  | .hear =>
    if s.agent.lagged then none
    else
      match s.agent.unread with
      | [] => none
      | change :: rest =>
        some (Agent.hear s.now s.content change { s.agent with unread := rest }, [])
  | .expire =>
    if s.agent.refresher.deadline.any (· ≤ s.now) then some (s.agent.expire s.now s.content)
    else none
  | _ => none

/-- The scene after a move and what was done, if the move is possible. -/
def step? (s : Scene) : Move → Option (Scene × List Effect)
  | .pass milliseconds => some ({ s with now := s.now + milliseconds }, [])
  | .edit e => some (s.edited e, [])
  | .tell command =>
    if s.agent.isRunning then some ({ s with agent := s.agent.tell command }, []) else none
  | .respond response => some ({ s with agent := s.agent.respond response }, [])
  | m => if s.agent.isRunning then (s.act? m).map s.acted else none

/-- The scene after moves one after another and all that was done. -/
def run? (s : Scene) : List Move → Option (Scene × List Effect)
  | [] => some (s, [])
  | m :: rest => do
    let (t, effects) ← s.step? m
    let (u, more) ← t.run? rest
    return (u, effects ++ more)

theorem run?_cons {s u : Scene} {m : Move} {moves : List Move} {effects : List Effect} :
    s.run? (m :: moves) = some (u, effects) ↔ ∃ t first more,
      s.step? m = some (t, first) ∧ t.run? moves = some (u, more) ∧ effects = first ++ more := by
  simp only [run?, Option.bind_eq_bind, Option.bind_eq_some_iff, Prod.exists]
  constructor
  · rintro ⟨t, first, ht, v, more, hv, h⟩
    simp only [Option.pure_def, Option.some.injEq, Prod.mk.injEq] at h
    obtain ⟨rfl, rfl⟩ := h
    exact ⟨t, first, more, ht, hv, rfl⟩
  · rintro ⟨t, first, more, ht, hu, rfl⟩
    exact ⟨t, first, ht, u, more, hu, rfl⟩

theorem run?_append {s t u : Scene} {before after : List Move} {first more : List Effect}
    (hs : s.run? before = some (t, first)) (ht : t.run? after = some (u, more)) :
    s.run? (before ++ after) = some (u, first ++ more) := by
  induction before generalizing s first with
  | nil =>
    obtain ⟨rfl, rfl⟩ : s = t ∧ [] = first := by simpa [run?] using hs
    exact ht
  | cons m rest ih =>
    obtain ⟨v, head, tail, hv, hrest, rfl⟩ := run?_cons.1 hs
    exact run?_cons.2 ⟨v, head, tail ++ more, hv, ih hrest, by simp⟩

/-- What every move keeps holds after every run; what was done so far may enter into it. -/
theorem run?_induction {P : Scene → List Effect → Prop}
    (hstep : ∀ {s : Scene} {m : Move} {done : List Effect} {r : Scene × List Effect},
      P s done → s.step? m = some r → P r.1 (done ++ r.2))
    {s t : Scene} {moves : List Move} (done : List Effect) {effects : List Effect} (h : P s done)
    (hrun : s.run? moves = some (t, effects)) : P t (done ++ effects) := by
  induction moves generalizing s done effects with
  | nil =>
    obtain ⟨rfl, rfl⟩ : s = t ∧ [] = effects := by simpa [run?] using hrun
    simpa using h
  | cons m rest ih =>
    obtain ⟨u, first, more, hu, hrest, rfl⟩ := run?_cons.1 hrun
    rw [← List.append_assoc]
    exact ih _ (hstep h hu) hrest

/-! ## What a move can be -/

/-- The five things that a running agent does. -/
inductive Acts (now : Nat) (c : Content) (a : Agent) : Agent × List Effect → Prop
  | obeyed (command : Command) (rest : List Command) (h : a.commands = command :: rest) :
      Acts now c a (Agent.obey now { a with commands := rest } command)
  | received (response : Response) (rest : List Response) (h : a.responses = response :: rest) :
      Acts now c a (Agent.receive response { a with responses := rest })
  | recovered (h : a.lagged = true) : Acts now c a (a.recover now, [])
  | heard (change : Change) (rest : List Change) (h : a.unread = change :: rest)
      (hlagged : a.lagged = false) :
      Acts now c a (Agent.hear now c change { a with unread := rest }, [])
  | expired (h : a.refresher.deadline.any (· ≤ now) = true) : Acts now c a (a.expire now c)

/-- What a move leads to. -/
inductive Leads (s : Scene) : Move → Scene × List Effect → Prop
  | passed (milliseconds : Nat) :
      Leads s (.pass milliseconds) ({ s with now := s.now + milliseconds }, [])
  | edited (e : Edit) : Leads s (.edit e) (s.edited e, [])
  | told (command : Command) (running : s.agent.isRunning = true) :
      Leads s (.tell command) ({ s with agent := s.agent.tell command }, [])
  | responded (response : Response) :
      Leads s (.respond response) ({ s with agent := s.agent.respond response }, [])
  | acted {m : Move} {r : Agent × List Effect} (running : s.agent.isRunning = true)
      (htell : ∀ command, m ≠ .tell command) (h : Acts s.now s.content s.agent r) :
      Leads s m (s.acted r)

theorem acts_of_act? {s : Scene} {m : Move} {r : Agent × List Effect} (h : s.act? m = some r) :
    Acts s.now s.content s.agent r := by
  cases m with
  | obey =>
    simp only [act?] at h
    split at h
    · simp at h
    · next command rest hc =>
      obtain rfl := Option.some.inj h
      exact .obeyed command rest hc
  | receive =>
    simp only [act?] at h
    split at h
    · simp at h
    · next response rest hr =>
      obtain rfl := Option.some.inj h
      exact .received response rest hr
  | recover =>
    simp only [act?] at h
    split at h
    · next hl =>
      obtain rfl := Option.some.inj h
      exact .recovered hl
    · simp at h
  | hear =>
    simp only [act?] at h
    split at h
    · simp at h
    · next hl =>
      split at h
      · simp at h
      · next change rest hu =>
        obtain rfl := Option.some.inj h
        exact .heard change rest hu (by simpa using hl)
  | expire =>
    simp only [act?] at h
    split at h
    · next hdue =>
      obtain rfl := Option.some.inj h
      exact .expired hdue
    · simp at h
  | pass | edit | tell | respond => simp [act?] at h

theorem leads_of_step? {s : Scene} {m : Move} {r : Scene × List Effect} (h : s.step? m = some r) :
    Leads s m r := by
  cases m with
  | pass milliseconds =>
    obtain rfl := Option.some.inj h
    exact .passed milliseconds
  | edit e =>
    obtain rfl := Option.some.inj h
    exact .edited e
  | tell command =>
    simp only [step?] at h
    split at h
    · next running =>
      obtain rfl := Option.some.inj h
      exact .told command running
    · simp at h
  | respond response =>
    obtain rfl := Option.some.inj h
    exact .responded response
  | obey | receive | recover | hear | expire =>
    simp only [step?] at h
    split at h
    · next running =>
      obtain ⟨r, hr, rfl⟩ := Option.map_eq_some_iff.1 h
      exact .acted running (fun _ => Move.noConfusion) (acts_of_act? hr)
    · simp at h

/-! ## The turns of an agent -/

/-- What a running agent takes up is a move. -/
theorem step?_of_act? {s : Scene} {m : Move} {r : Agent × List Effect}
    (running : s.agent.isRunning = true) (h : s.act? m = some r) :
    s.step? m = some (s.acted r) := by
  cases m with
  | obey | receive | recover | hear | expire => simp [step?, running, h]
  | pass | edit | tell | respond => simp [act?] at h

/-- What an agent does next by itself it takes up. -/
theorem exists_act?_of_agent {s : Scene} {r : Agent × List Effect}
    (h : s.agent.step? s.now s.content = some r) :
    s.agent.isRunning = true ∧ ∃ m, s.act? m = some r := by
  have running : s.agent.isRunning = true := by
    cases hrunning : s.agent.isRunning with
    | false => simp [Agent.step?, hrunning] at h
    | true => rfl
  refine ⟨running, ?_⟩
  simp only [Agent.step?, running, Bool.not_true, Bool.false_eq_true, if_false] at h
  split at h
  · next command rest hc => exact ⟨.obey, by simpa [act?, hc] using h⟩
  · next response rest _ hr => exact ⟨.receive, by simpa [act?, hr] using h⟩
  · next hl => exact ⟨.recover, by simpa [act?, hl] using h⟩
  · next change rest _ _ hl hu => exact ⟨.hear, by simpa [act?, hl, hu] using h⟩
  · split at h
    · next hdue => exact ⟨.expire, by simpa [act?, hdue] using h⟩
    · cases h

/-- A turn of an agent is a run in which neither the time nor the content changes. -/
theorem exists_run?_of_turn (s : Scene) :
    ∃ moves, s.run? moves =
      some ({ s with agent := (s.agent.turn s.now s.content).1 },
        (s.agent.turn s.now s.content).2.1) := by
  unfold Agent.turn
  generalize Agent.turnLength = n
  induction n generalizing s with
  | zero => exact ⟨[], rfl⟩
  | succ n ih =>
    simp only [Agent.stepWithin]
    cases h : s.agent.step? s.now s.content with
    | none => exact ⟨[], rfl⟩
    | some r =>
      obtain ⟨running, m, hm⟩ := exists_act?_of_agent h
      obtain ⟨moves, hmoves⟩ := ih (s.acted r).1
      exact ⟨m :: moves, run?_cons.2 ⟨_, _, _, step?_of_act? running hm, hmoves, rfl⟩⟩

end Scene
end MapQuery
