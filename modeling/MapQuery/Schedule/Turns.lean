import MapQuery.Schedule.Refresher

/-!
# Turns

In a session one thing happens after another: an agent does what there is for it to do, a request
is sent, a reply is brought. Each of these is a turn. Whoever has something to do is ready, and the
ready are served in the order in which they became so. The others rest, and those that are woken
together become ready in the order in which they began to rest.
-/

set_option autoImplicit false

namespace MapQuery

/-- What a turn is for. -/
inductive Turn where
  /-- The agent at a place does what there is to do. -/
  | agent (place : Nat)
  /-- A request of the agent at a place is sent. -/
  | request (place generation : Nat) (parameters : Parameters)
  /-- A reply for the agent at a place is brought, once it is due. -/
  | reply (place generation due : Nat) (reply : Reply)
  deriving DecidableEq

def Turn.isAgent : Turn → Bool
  | .agent _ => true
  | _ => false

/-- The turns that are still to come. -/
structure Turns where
  /-- Those that come next, in this order. -/
  ready : List Turn := []
  /-- Those that were cut short and are to be continued, the last of them first. -/
  unfinished : List Turn := []
  /-- Those that wait for something, in the order in which they began to. -/
  resting : List Turn := []

namespace Turns

def add (t : Turn) (q : Turns) : Turns := { q with ready := q.ready ++ [t] }

def rest (t : Turn) (q : Turns) : Turns := { q with resting := q.resting ++ [t] }

/-- Keeps a turn that was cut short. -/
def interrupt (t : Turn) (q : Turns) : Turns := { q with unfinished := t :: q.unfinished }

/-- Makes the resting turns of some kind ready. -/
def wake (p : Turn → Bool) (q : Turns) : Turns :=
  { q with ready := q.ready ++ q.resting.filter p, resting := q.resting.filter (!p ·) }

/-- The next turn and those after it. When none is ready, the resting ones that are due become so,
and the unfinished ones after them. -/
def next? (due : Turn → Bool) (q : Turns) : Option (Turn × Turns) :=
  match q.ready with
  | t :: rest => some (t, { q with ready := rest })
  | [] =>
    match q.resting.filter due ++ q.unfinished with
    | t :: rest => some (t, ⟨rest, [], q.resting.filter (!due ·)⟩)
    | [] => none

def resume (q : Turns) : Turns := { q with ready := q.ready ++ q.unfinished, unfinished := [] }

def size (q : Turns) : Nat := q.ready.length + q.unfinished.length + q.resting.length

end Turns
end MapQuery
