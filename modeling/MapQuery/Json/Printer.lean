import MapQuery.Json.Value
import MapQuery.Decimal.Layout

/-!
# JSON text

The compact form has no blanks. The indented form puts every item and member on a line of its own,
two spaces deeper than what encloses it; an empty array or object stays on one line.
-/

set_option autoImplicit false

namespace MapQuery.Json

def hexUnit (n : Nat) : Text :=
  let digits := Nat.toDigits 16 n
  List.replicate (4 - digits.length) '0' ++ digits

def stringChar (c : Char) : Text :=
  if c = '"' then "\\\""
  else if c = '\\' then "\\\\"
  else if c = '\x08' then "\\b"
  else if c = '\x0c' then "\\f"
  else if c = '\n' then "\\n"
  else if c = '\r' then "\\r"
  else if c = '\t' then "\\t"
  else if c.toNat < 32 then "\\u" ++ hexUnit c.toNat
  else [c]

def stringText (t : Text) : Text := '"' :: (t.flatMap stringChar ++ ['"'])

def Number.text : Number → Text
  | .int z => Text.integer z
  | .real x => Decimal.Layout.json.write x

namespace Value

mutual

/-- The text of a value without blanks. -/
def compact : Value → Text
  | .null => "null"
  | .bool b => Text.truth b
  | .number n => n.text
  | .string t => stringText t
  | .array items => '[' :: (Text.joined "," (compactItems items) ++ "]")
  | .object members => '{' :: (Text.joined "," (compactMembers members) ++ "\x7d")

def compactItems : List Value → List Text
  | [] => []
  | v :: rest => compact v :: compactItems rest

def compactMembers : List (Text × Value) → List Text
  | [] => []
  | (k, v) :: rest => (stringText k ++ ":" ++ compact v) :: compactMembers rest

end

theorem compactItems_eq_map (items : List Value) : compactItems items = items.map compact := by
  induction items with
  | nil => rfl
  | cons v rest ih => simp [compactItems, ih]

theorem compactMembers_eq_map (members : List (Text × Value)) :
    compactMembers members = members.map fun m => stringText m.1 ++ ":" ++ compact m.2 := by
  induction members with
  | nil => rfl
  | cons m rest ih => simp [compactMembers, ih]

/-- Texts on lines of their own between two brackets; `margin` is where the brackets stand. -/
def block (opening closing : Char) (margin : Text) (lines : List Text) : Text :=
  if lines.isEmpty then [opening, closing]
  else
    let inner : Text := margin ++ "  "
    opening :: (Text.joined "," (lines.map fun l => "\n" ++ inner ++ l) ++ "\n" ++ margin
      ++ [closing])

mutual

/-- The indented text of a value whose first line starts at `margin`. -/
def indentedFrom (margin : Text) : Value → Text
  | .array items => block '[' ']' margin (indentedItems (margin ++ "  ") items)
  | .object members => block '{' '}' margin (indentedMembers (margin ++ "  ") members)
  | .null => "null"
  | .bool b => Text.truth b
  | .number n => n.text
  | .string t => stringText t

def indentedItems (margin : Text) : List Value → List Text
  | [] => []
  | v :: rest => indentedFrom margin v :: indentedItems margin rest

def indentedMembers (margin : Text) : List (Text × Value) → List Text
  | [] => []
  | (k, v) :: rest =>
    (stringText k ++ ": " ++ indentedFrom margin v) :: indentedMembers margin rest

end

/-- The text of a value over several lines. -/
def indented (v : Value) : Text := indentedFrom [] v

end Value
end MapQuery.Json
