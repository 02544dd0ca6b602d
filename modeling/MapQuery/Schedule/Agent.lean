import MapQuery.Schedule.Refresher

/-!
# Agents

An agent runs one refresher. Commands, replies and announced changes wait for it until it gets to
run; of the changes only the newest 256 are kept, and losing some is a change of its own. In one
turn it takes up at most 128 of these things.
-/

set_option autoImplicit false

namespace MapQuery

/-- What an agent can be told. -/
inductive Command where
  | refresh
  | setVisible (visible : Bool)
  | setWindow (window : Option TimeWindow)
  | stop
  deriving DecidableEq

/-- A reply and the request it is for. -/
structure Response where
  generation : Nat
  reply : Reply
  deriving DecidableEq

/-- Whether an agent still runs. -/
inductive Condition where
  | running
  | stopped
  /-- A time window left the calendar. -/
  | crashed
  deriving DecidableEq

/-- A refresher with what waits for it. -/
structure Agent where
  refresher : Refresher
  condition : Condition := .running
  /-- Commands not obeyed yet, oldest first. -/
  commands : List Command := []
  /-- Replies not taken yet, oldest first. -/
  responses : List Response := []
  /-- Changes not heard of yet, oldest first. -/
  unread : List Change := []
  lagged : Bool := false

namespace Agent

/-- How many changes are kept for an agent. -/
def capacity : Nat := 256

/-- How many things an agent takes up in one turn. -/
def turnLength : Nat := 128

def isRunning (a : Agent) : Bool := a.condition == .running

def layerId (a : Agent) : Text := a.refresher.source.layer.id

def waiting (a : Agent) : Nat :=
  a.commands.length + a.responses.length + a.unread.length + a.lagged.toNat

def tell (command : Command) (a : Agent) : Agent := { a with commands := a.commands ++ [command] }

def respond (response : Response) (a : Agent) : Agent :=
  if a.isRunning then { a with responses := a.responses ++ [response] } else a

/-- Leaves an announced change for an agent; the oldest makes room where there is none. -/
def announce (change : Change) (a : Agent) : Agent :=
  if !a.isRunning then a
  else if a.unread.length < capacity then { a with unread := a.unread ++ [change] }
  else { a with unread := a.unread.drop 1 ++ [change], lagged := true }

/-- Ends an agent; what waits for it is dropped. -/
def finish (condition : Condition) (a : Agent) : Agent :=
  { a with condition := condition, commands := [], responses := [], unread := [], lagged := false }

/-- Stops an agent, aborting its request in flight. -/
def stop (a : Agent) : Agent × List Effect :=
  let (r, effects) := a.refresher.abort
  (finish .stopped { a with refresher := r }, effects)

def obey (now : Nat) (a : Agent) : Command → Agent × List Effect
  | .refresh => ({ a with refresher := a.refresher.schedule now }, [])
  | .setVisible visible => ({ a with refresher := a.refresher.setVisible now visible }, [])
  | .setWindow window => ({ a with refresher := a.refresher.setWindow now window }, [])
  | .stop => a.stop

def receive (response : Response) (a : Agent) : Agent × List Effect :=
  let (r, effects) := a.refresher.complete response.generation response.reply
  ({ a with refresher := r }, effects)

/-- Makes up for lost changes, any of which might have mattered. -/
def recover (now : Nat) (a : Agent) : Agent :=
  { a with refresher := a.refresher.schedule now, lagged := false }

def hear (now : Nat) (c : Content) (change : Change) (a : Agent) : Agent :=
  { a with refresher := a.refresher.hear now c change }

def expire (now : Nat) (c : Content) (a : Agent) : Agent × List Effect :=
  match a.refresher.expire now c with
  | some (r, effects) => ({ a with refresher := r }, effects)
  | none => (a.finish .crashed, [])

/-- Does the next thing there is to do, if there is any. The debounce window comes last. -/
def step? (now : Nat) (c : Content) (a : Agent) : Option (Agent × List Effect) :=
  if !a.isRunning then none
  else
    match a.commands, a.responses, a.lagged, a.unread with
    | command :: rest, _, _, _ => some (obey now { a with commands := rest } command)
    | [], response :: rest, _, _ => some (receive response { a with responses := rest })
    | [], [], true, _ => some (a.recover now, [])
    | [], [], false, change :: rest => some (hear now c change { a with unread := rest }, [])
    | [], [], false, [] =>
      if a.refresher.deadline.any (· ≤ now) then some (a.expire now c) else none

/-- Does one thing after another, but no more than some number; whether that number was reached. -/
def stepWithin (now : Nat) (c : Content) : Nat → Agent → Agent × List Effect × Bool
  | 0, a => (a, [], true)
  | n + 1, a =>
    match a.step? now c with
    | none => (a, [], false)
    | some (a, effects) =>
      let (a, more, isCut) := stepWithin now c n a
      (a, effects ++ more, isCut)

/-- The turn of an agent; whether it was cut short. -/
def turn (now : Nat) (c : Content) (a : Agent) : Agent × List Effect × Bool :=
  stepWithin now c turnLength a

end Agent
end MapQuery
