import MapQuery.Json.Value

/-!
# JSON text read as far as it goes

A text that stops being JSON is still read up to that point, because what a reader wants of it
decides which fault it meets first. A `Source` is the tree found so far; where it breaks off it
says what goes wrong for a reader that wants the value there, for one that wants a name, and for
one that passes over it.
-/

set_option autoImplicit false

namespace MapQuery.Json

/-- Why a text or a value cannot be read. -/
inductive Fault where
  /-- The text ends too early. -/
  | endOfText
  /-- The text is not JSON, or goes beyond what JSON values can hold here. -/
  | malformed
  /-- The value is not of the form that is read. -/
  | shape
  deriving DecidableEq

/-- A point from which a text cannot be read on. -/
structure Break where
  /-- The fault for a reader of the value. -/
  read : Fault
  /-- The fault for a reader that passes over the value. -/
  skip : Fault
  /-- The fault for a reader of a name, who looks no further into a word or a number than to see
  that it is none. -/
  name : Fault

def Break.same (f : Fault) : Break := ⟨f, f, f⟩

/-- A break within a word or a number. -/
def Break.nameless (read skip : Fault) : Break := ⟨read, skip, .malformed⟩

/-- A value as far as the text yields it. -/
inductive Source where
  | null
  | bool (value : Bool)
  /-- A number, which may be out of range for whoever reads it. -/
  | number (value : Except Fault Number)
  /-- A string, which may hold escapes that denote no character. -/
  | string (value : Except Fault Text)
  | array (items : List Source) (cut : Option Break)
  /-- Where a member is begun but has no key, the fault stands in its place. -/
  | object (members : List (Except Fault Text × Source)) (cut : Option Break)
  | broken (at_ : Break)

namespace Source

/-- Nested arrays and objects are read down to this depth. -/
def depthLimit : Nat := 127

mutual

/-- The value of a source nested at most `budget` deep. -/
def value (budget : Nat) : Source → Except Fault Value
  | .null => .ok .null
  | .bool b => .ok (.bool b)
  | .number n => n.map .number
  | .string t => t.map .string
  | .array items cut =>
    match budget with
    | 0 => .error .malformed
    | budget + 1 => do
      let values ← itemValues budget items
      match cut with
      | some c => .error c.read
      | none => .ok (.array values)
  | .object members cut =>
    match budget with
    | 0 => .error .malformed
    | budget + 1 => do
      let values ← memberValues budget members
      match cut with
      | some c => .error c.read
      | none => .ok (Value.sortedObject values)
  | .broken b => .error b.read

def itemValues (budget : Nat) : List Source → Except Fault (List Value)
  | [] => .ok []
  | s :: rest => do
    let v ← value budget s
    let values ← itemValues budget rest
    .ok (v :: values)

def memberValues (budget : Nat) :
    List (Except Fault Text × Source) → Except Fault (List (Text × Value))
  | [] => .ok []
  | (key, s) :: rest => do
    let k ← key
    let v ← value budget s
    let values ← memberValues budget rest
    .ok ((k, v) :: values)

end

mutual

/-- Passes over a source; only where the text breaks off is there a fault. -/
def skip : Source → Except Fault Unit
  | .array items cut => do
    skipItems items
    match cut with
    | some c => .error c.skip
    | none => .ok ()
  | .object members cut => do
    skipMembers members
    match cut with
    | some c => .error c.skip
    | none => .ok ()
  | .broken b => .error b.skip
  | .null | .bool _ | .number _ | .string _ => .ok ()

def skipItems : List Source → Except Fault Unit
  | [] => .ok ()
  | s :: rest => do
    skip s
    skipItems rest

def skipMembers : List (Except Fault Text × Source) → Except Fault Unit
  | [] => .ok ()
  | (_, s) :: rest => do
    skip s
    skipMembers rest

end

mutual

/-- A value in memory as a source; nothing is amiss with it. -/
def ofValue : Value → Source
  | .null => .null
  | .bool b => .bool b
  | .number n => .number (.ok n)
  | .string t => .string (.ok t)
  | .array items => .array (ofItems items) none
  | .object members => .object (ofMembers members) none

def ofItems : List Value → List Source
  | [] => []
  | v :: rest => ofValue v :: ofItems rest

def ofMembers : List (Text × Value) → List (Except Fault Text × Source)
  | [] => []
  | (k, v) :: rest => (.ok k, ofValue v) :: ofMembers rest

end

/-- The fault of a reader that wants something other than what is there. -/
def mismatch : Source → Fault
  | .broken b => b.read
  | .number (.error f) => f
  | .string (.error f) => f
  | _ => .shape

end Source
end MapQuery.Json
