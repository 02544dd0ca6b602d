import MapQuery.Text.Basic

/-!
# Patterns

A stored pattern names its own special characters. Read from left to right it is a sequence of
parts, and written again with `%` for any run of characters and `_` for any single one.
-/

set_option autoImplicit false

namespace MapQuery

/-- The special characters of a stored pattern. -/
structure PatternStyle where
  /-- Stands for any run of characters. -/
  wild : Char := '*'
  /-- Stands for any one character. -/
  single : Char := '.'
  /-- Takes its meaning from the character after it. -/
  escape : Char := '!'
  deriving DecidableEq

inductive PatternPart where
  | literal (c : Char)
  | anyRun
  | anyOne
  deriving DecidableEq

namespace PatternStyle

/-- The part of a character that is not an escape. -/
def part (s : PatternStyle) (c : Char) : PatternPart :=
  if c = s.wild then .anyRun else if c = s.single then .anyOne else .literal c

/-- The parts of a pattern; an escape at the very end stands for itself. -/
def parts (s : PatternStyle) : Text → List PatternPart
  | [] => []
  | [c] => [if c = s.escape then .literal c else s.part c]
  | c :: d :: rest =>
    if c = s.escape then .literal d :: parts s rest else s.part c :: parts s (d :: rest)

end PatternStyle

/-- A part in the alphabet of `%` and `_`, which leaves no way to write these two as literals. -/
def PatternPart.percentForm : PatternPart → Char
  | .literal c => c
  | .anyRun => '%'
  | .anyOne => '_'

/-- A stored pattern in the alphabet of `%` and `_`. -/
def PatternStyle.percentText (s : PatternStyle) (pattern : Text) : Text :=
  (s.parts pattern).map PatternPart.percentForm

def hasPercentWildcard (t : Text) : Bool := t.any fun c => c == '%' || c == '_'

end MapQuery
