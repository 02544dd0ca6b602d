import MapQuery.Schedule.Agent
import MapQuery.Schedule.Turns

/-!
# Sessions

A session is a workspace whose layers are refreshed on a clock of its own. Edits are announced to
all agents. Whoever has something to do gets turns without the clock moving; the clock moves only
when it is told to, and whatever is due on the way happens at its own time.
-/

set_option autoImplicit false

namespace MapQuery

/-- How the answer to a request will come. -/
structure Answer where
  /-- After how many milliseconds. -/
  latency : Nat := 0
  /-- The failure it is, if it is one; the body of a good answer names its request. -/
  failure : Option Reply := none

namespace Answer

/-- The next answer for a layer and those left; when there is none, a good one comes at once. -/
def next (layerId : Text) : List (Text × List Answer) → Answer × List (Text × List Answer)
  | [] => ({}, [])
  | (id, list) :: rest =>
    if id = layerId then
      match list with
      | [] => ({}, (id, []) :: rest)
      | a :: more => (a, (id, more) :: rest)
    else
      let (a, rest) := next layerId rest
      (a, (id, list) :: rest)

def body (layerId : Text) (generation : Nat) : Text := layerId ++ "#" ++ Text.natural generation

def reply (layerId : Text) (generation : Nat) (a : Answer) : Reply :=
  a.failure.getD (.body (body layerId generation))

end Answer

/-- An effect and the layer it is for. -/
structure LogEntry where
  layerId : Text
  effect : Effect

/-- A workspace with agents that refresh its layers. -/
structure Session where
  pace : Pace
  content : Content
  now : Nat := 0
  /-- Every agent ever started, in that order. -/
  agents : List Agent := []
  /-- The layers that are kept up, by the places of their agents. -/
  attached : List (Text × Nat) := []
  /-- Who is to act next, and who waits. -/
  turns : Turns := {}
  answers : List (Text × List Answer)
  /-- What has happened, oldest first. -/
  log : List LogEntry := []

/-- Why a session does not do what it is told. -/
inductive SessionFault where
  | unknownSource (layerId : Text)
  | closed (layerId : Text)

def SessionFault.message : SessionFault → Text
  | .unknownSource layerId => "unknown data source: " ++ layerId
  | .closed layerId => "scheduler for " ++ layerId ++ " is no longer running"

namespace Session

def note (layerId : Text) (effect : Effect) (s : Session) : Session :=
  { s with log := s.log ++ [⟨layerId, effect⟩] }

/-- Lets the effects of an agent happen in order, but a request is sent in a turn of its own. -/
def perform (place : Nat) (layerId : Text) (effects : List Effect) (s : Session) : Session :=
  effects.foldl (fun s effect =>
    match effect with
    | .fetch generation parameters =>
      { s with turns := s.turns.add (.request place generation parameters) }
    | _ => s.note layerId effect) s

def wakeAgent (place : Nat) (s : Session) : Session :=
  { s with turns := s.turns.wake (· == .agent place) }

/-- Brings a reply to the agent at a place. -/
def bring (place : Nat) (response : Response) (s : Session) : Session :=
  wakeAgent place { s with agents := s.agents.modify place (Agent.respond response) }

/-- Sends a request of an agent that still runs. A reply that takes no time is brought at once. -/
def send (place generation : Nat) (parameters : Parameters) (s : Session) : Session :=
  match s.agents[place]?.filter Agent.isRunning with
  | none => s
  | some a =>
    let (answer, answers) := Answer.next a.layerId s.answers
    let reply := answer.reply a.layerId generation
    let s := note a.layerId (.fetch generation parameters) { s with answers := answers }
    if answer.latency = 0 then s.bring place ⟨generation, reply⟩
    else
      let due := s.now + answer.latency
      { s with turns := s.turns.rest (.reply place generation due reply) }

/-- Gives the agent at a place its turn, after which it rests unless its turn was cut short or it
has ended. -/
def runAgent (place : Nat) (s : Session) : Session :=
  match s.agents[place]? with
  | none => s
  | some a =>
    let (a, effects, isCut) := a.turn s.now s.content
    let s := perform place a.layerId effects { s with agents := s.agents.set place a }
    if !a.isRunning then s
    else if isCut then { s with turns := s.turns.interrupt (.agent place) }
    else { s with turns := s.turns.rest (.agent place) }

def take (t : Turn) (s : Session) : Session :=
  match t with
  | .agent place => s.runAgent place
  | .request place generation parameters => s.send place generation parameters
  | .reply place generation _ reply => s.bring place ⟨generation, reply⟩

/-- The time for which a turn waits, if it waits for a time. -/
def dueTime? (s : Session) : Turn → Option Nat
  | .agent place => s.agents[place]?.bind fun a => a.refresher.deadline
  | .request .. => none
  | .reply _ _ due _ => some due

/-- Whether the time for which a turn waits has come. -/
def isDue (s : Session) (t : Turn) : Bool := (s.dueTime? t).any (· ≤ s.now)

/-- Lets at most some turns happen; what is unfinished by then goes on later. -/
def settleWithin : Nat → Session → Session
  | 0, s => { s with turns := s.turns.resume }
  | n + 1, s =>
    match s.turns.next? s.isDue with
    | none => s
    | some (t, turns) => settleWithin n (take t { s with turns := turns })

/-- As many turns as can happen at one time, unless a debounce window of no length is armed again
and again: each agent has few of its own, and each waiting thing leads to few more. -/
def enoughTurns (s : Session) : Nat :=
  16 * s.agents.foldl (fun n a => n + a.waiting + 1) (s.turns.size + 1)

/-- The session when nothing is left to do at this time. -/
def settle (s : Session) : Session := settleWithin s.enoughTurns s

/-- The next time after now at which something happens by itself. -/
def nextTime? (s : Session) : Option Nat :=
  ((s.turns.resting.filterMap s.dueTime?).filter (s.now < ·)).min?

/-- Moves the clock, stopping wherever something happens; it does so at most `fuel` times. -/
def advanceWithin : Nat → (target : Nat) → Session → Session
  | 0, target, s => settle { s with now := target }
  | fuel + 1, target, s =>
    match s.nextTime? with
    | some time =>
      if time ≤ target then advanceWithin fuel target (settle { s with now := time })
      else settle { s with now := target }
    | none => settle { s with now := target }

/-- Moves the clock by some milliseconds. -/
def advance (milliseconds : Nat) (s : Session) : Session :=
  advanceWithin milliseconds (s.now + milliseconds) s.settle

/-- Edits the content and announces what has changed to every agent. -/
def edit (e : Edit) (s : Session) : Session :=
  let s' := { s with content := s.content.edit e }
  match s.content.announced e with
  | none => s'
  | some change =>
    { s' with agents := s.agents.map (Agent.announce change), turns := s.turns.wake Turn.isAgent }

/-- Starts an agent; its place is the number of those before it. -/
def spawn (source : DataSource) (s : Session) : Session × Nat :=
  let place := s.agents.length
  ({ s with
      agents := s.agents ++ [{ refresher := .start source s.pace }]
      turns := s.turns.add (.agent place) },
    place)

/-- Tells the agent at a place something. -/
def tellAgent (place : Nat) (command : Command) (s : Session) : Except SessionFault Session :=
  match s.agents[place]? with
  | none => .ok s
  | some a =>
    if a.isRunning then
      .ok (wakeAgent place { s with agents := s.agents.set place (a.tell command) })
    else .error (.closed a.layerId)

/-- Tells the agent at a place to stop, which a stopped one need not hear. -/
def stopAgent (place : Nat) (s : Session) : Session :=
  match s.tellAgent place .stop with
  | .ok s => s
  | .error _ => s

/-- The place of the agent of an attached layer. -/
def placeOf (layerId : Text) (s : Session) : Except SessionFault Nat :=
  match s.attached.lookup layerId with
  | some place => .ok place
  | none => .error (.unknownSource layerId)

/-- Tells the agent of an attached layer something. -/
def tell (layerId : Text) (command : Command) (s : Session) : Except SessionFault Session := do
  let place ← s.placeOf layerId
  s.tellAgent place command

/-- The published status of the agent at a place. -/
def statusAt? (place : Nat) (s : Session) : Option Status :=
  s.agents[place]?.map fun a => a.refresher.published

/-- The published status of an attached layer. -/
def status (layerId : Text) (s : Session) : Except SessionFault Status := do
  let place ← s.placeOf layerId
  match s.statusAt? place with
  | some status => .ok status
  | none => .error (.unknownSource layerId)

def detach (layerId : Text) (s : Session) : Session :=
  { s with attached := s.attached.filter fun l => l.1 != layerId }

/-- Keeps a layer up from now on. Its first refresh is under way; an agent it had before stops. -/
def attach (source : DataSource) (s : Session) : Session :=
  let id := source.layer.id
  let (t, place) := s.spawn source
  let t := (t.tellAgent place .refresh).toOption.getD t
  let t := { t.detach id with attached := (id, place) :: (t.detach id).attached }
  match s.attached.lookup id with
  | some previous => t.stopAgent previous
  | none => t

/-- Inserts a text among texts in order. -/
def insertText (t : Text) : List Text → List Text
  | [] => [t]
  | u :: rest => if u.before t then u :: insertText t rest else t :: u :: rest

/-- The attached layers in order. -/
def layerIds (s : Session) : List Text := s.attached.foldl (fun ids l => insertText l.1 ids) []

/-- Stops the agent at a place and waits for it; whether it had not crashed before. -/
def shutDownAgent (place : Nat) (s : Session) : Session × Bool :=
  let s := (s.stopAgent place).settle
  (s, s.agents[place]?.all fun a => a.condition != .crashed)

/-- Stops keeping a layer up: its agent stops, its results are dropped and its entries removed. The
number of these is the answer. -/
def removeLayer (layerId : Text) (s : Session) : Session × Except SessionFault Nat :=
  match s.placeOf layerId with
  | .error fault => (s, .error fault)
  | .ok place =>
    match (s.detach layerId).shutDownAgent place with
    | (s, false) => (s, .error (.closed layerId))
    | (s, true) =>
      let before := s.content.entries.length
      let s := (s.note layerId .clear).edit (.dropLayer layerId)
      (s, .ok (before - s.content.entries.length))

def shutDown (s : Session) : Session :=
  s.layerIds.foldl (fun s id =>
    match s.placeOf id with
    | .ok place => ((s.detach id).shutDownAgent place).1
    | .error _ => s) s

/-- What has happened since the last time, and the session with that forgotten. -/
def takeLog (s : Session) : List LogEntry × Session :=
  (s.log, { s with log := [] })

end Session
end MapQuery
