import MapQuery.Json.Reader

/-!
# Typed reading

Readers for the forms that documents are made of. They visit a source in the order of its text and
stop at the first fault. A record is written as an object, whose unknown members are passed over
and whose known ones may occur once, or as an array of its fields in order.
-/

set_option autoImplicit false

namespace MapQuery.Json

/-- A reader of one form of value. -/
abbrev Reader (α : Type) := Source → Except Fault α

namespace Source

def text : Reader Text
  | .string t => t
  | s => .error s.mismatch

/-- Reads one of several names: the name, or an object of the name and null. -/
def choice {α : Type} (ofName? : Text → Option α) : Reader α :=
  let choose (t : Text) : Except Fault α := (ofName? t).elim (.error .shape) .ok
  fun
    | .string t => t.bind choose
    | .broken b => .error b.name
    | .object ((key, s) :: rest) cut => do
      let a ← key.bind choose
      match s with
      | .null =>
        match rest, cut with
        | [], none => .ok a
        | [], some c => .error c.read
        | _, _ => .error .malformed
      | s => .error s.mismatch
    | _ => .error .malformed

def real : Reader Float
  | .number n => n.map Number.toFloat
  | s => .error s.mismatch

def truth : Reader Bool
  | .bool b => .ok b
  | s => .error s.mismatch

/-- Ends a reading at the point where a text may break off. -/
def ending {α : Type} (cut : Option Break) (a : α) : Except Fault α :=
  match cut with
  | some c => .error c.read
  | none => .ok a

def list {α : Type} (reader : Reader α) : Reader (List α)
  | .array items cut => do
    let values ← items.mapM reader
    ending cut values
  | s => .error s.mismatch

/-- The fault of an array that ends before its last position. -/
def tooShort (cut : Option Break) : Fault := (cut.map Break.read).getD .shape

/-- Ends the reading of an array after its last position. -/
def atEnd {α : Type} (rest : List Source) (cut : Option Break) (a : α) : Except Fault α :=
  if rest.isEmpty then ending cut a else .error .malformed

def pair {α : Type} (reader : Reader α) : Reader (α × α)
  | .array (first :: second :: rest) cut => do
    let a ← reader first
    let b ← reader second
    atEnd rest cut (a, b)
  | .array (first :: []) cut => do
    let _ ← reader first
    .error (tooShort cut)
  | .array [] cut => .error (tooShort cut)
  | s => .error s.mismatch

/-- Reads from a value in memory: whatever is amiss is its form. -/
def fromValue {α : Type} (reader : Reader α) (v : Value) : Except Fault α :=
  (reader (ofValue v)).mapError fun _ => .shape

end Source

/-- One field of a record under construction. -/
structure Field (ρ : Type) where
  name : Text
  read : Source → ρ → Except Fault ρ
  optional : Bool

def field {ρ α : Type} (name : Text) (reader : Reader α) (put : α → ρ → ρ)
    (optional : Bool) : Field ρ :=
  ⟨name, fun s r => (reader s).map fun a => put a r, optional⟩

namespace Source

/-- Reads the members of an object into a record; `seen` holds the fields met so far. -/
def members {ρ : Type} (fields : List (Field ρ)) :
    List (Except Fault Text × Source) → List Text → ρ → Except Fault (ρ × List Text)
  | [], seen, r => .ok (r, seen)
  | (key, s) :: rest, seen, r => do
    let k ← key
    match fields.find? (·.name == k) with
    | none =>
      skip s
      members fields rest seen r
    | some f =>
      if seen.contains k then .error .shape
      else
        let r ← f.read s r
        members fields rest (k :: seen) r

def positions {ρ : Type} (cut : Option Break) :
    List (Field ρ) → List Source → ρ → Except Fault ρ
  | [], rest, r => atEnd rest cut r
  | f :: fields, [], r =>
    match cut with
    | some c => .error c.read
    | none => if f.optional then positions cut fields [] r else .error .shape
  | f :: fields, s :: rest, r => do
    let r ← f.read s r
    positions cut fields rest r

/-- Reads a record from its blank form; fields that may not be missing have to occur. -/
def record {ρ : Type} (fields : List (Field ρ)) (blank : ρ) : Reader ρ
  | .object entries cut => do
    let (r, seen) ← members fields entries [] blank
    let r ← ending cut r
    if fields.all fun f => f.optional || seen.contains f.name then .ok r else .error .shape
  | .array items cut => positions cut fields items blank
  | s => .error s.mismatch

end Source
end MapQuery.Json
