import MapQuery.Decimal.Layout
import MapQuery.Decimal.Numeral
import MapQuery.Text.Case

/-!
# Literals

The constants of comparisons. A text that is a finite numeral counts as a number and keeps its
spelling; a text that spells a truth value counts as one.
-/

set_option autoImplicit false

namespace MapQuery

/-- A constant that a column is compared with. -/
inductive Literal where
  | bool (value : Bool)
  | number (value : Float)
  | text (value : Text)
  deriving BEq

/-- What a literal counts as. -/
inductive LiteralClass where
  /-- Written as it is spelled. -/
  | number (spelling : Text)
  /-- Written as a truth value. -/
  | bool (value : Bool)
  /-- Written as a quotation. -/
  | text (value : Text)
  deriving DecidableEq

namespace Literal

/-- The spelling of a number; zero has no sign. -/
def numberText (x : Float) : Text := if x == 0 then "0" else Decimal.Layout.plain.write x

def classOfText (t : Text) : LiteralClass :=
  if Decimal.isFiniteNumeral t then .number t
  else if Text.sameLetters t "true" then .bool true
  else if Text.sameLetters t "false" then .bool false
  else .text t

def classify : Literal → LiteralClass
  | .bool b => .bool b
  | .number x => .number (numberText x)
  | .text t => classOfText t

/-- The text of a literal without any quoting. -/
def rawText : Literal → Text
  | .bool b => Text.truth b
  | .number x => numberText x
  | .text t => t

end Literal
end MapQuery
