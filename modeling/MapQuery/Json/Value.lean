import MapQuery.Text.Basic

/-!
# JSON values

Numbers keep whether they were written as integers. Objects are lists of members in the order in
which they are written; the normal form of an object read from a text is sorted by key.
-/

set_option autoImplicit false

namespace MapQuery.Json

/-- An integer, or a real number when it was written as one or is out of the integers' range. -/
inductive Number where
  | int (value : Int)
  | real (value : Float)
  deriving BEq

/-- The real number nearest to a number. -/
def Number.toFloat : Number → Float
  | .int z => Float.ofInt z
  | .real x => x

inductive Value where
  | null
  | bool (value : Bool)
  | number (value : Number)
  | string (value : Text)
  | array (items : List Value)
  | object (members : List (Text × Value))

namespace Value

/-- Puts a member among members sorted by key, in place of an earlier one of the same key. -/
def putMember (key : Text) (value : Value) : List (Text × Value) → List (Text × Value)
  | [] => [(key, value)]
  | (k, v) :: rest =>
    if k == key then (key, value) :: rest
    else if key.before k then (key, value) :: (k, v) :: rest
    else (k, v) :: putMember key value rest

/-- The object with the given members, sorted by key; of equal keys the last one counts. -/
def sortedObject (members : List (Text × Value)) : Value :=
  .object (members.foldl (fun acc m => putMember m.1 m.2 acc) [])

mutual

/-- The value with the members of every object sorted by key. -/
def normal : Value → Value
  | .null => .null
  | .bool b => .bool b
  | .number n => .number n
  | .string t => .string t
  | .array items => .array (normalItems items)
  | .object members => sortedObject (normalMembers members)

def normalItems : List Value → List Value
  | [] => []
  | v :: rest => normal v :: normalItems rest

def normalMembers : List (Text × Value) → List (Text × Value)
  | [] => []
  | (k, v) :: rest => (k, normal v) :: normalMembers rest

end

def member? (key : Text) : Value → Option Value
  | .object members => members.lookup key
  | _ => none

end Value
end MapQuery.Json
