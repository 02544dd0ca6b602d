import MapQuery.Text.Basic
import MapQuery.Text.UpperCaseTable

/-!
# Letter case

Lower case and comparison within ASCII, and the full upper case of Unicode, which may lengthen a
text.
-/

set_option autoImplicit false

namespace MapQuery

namespace UpperCase

def Run.covers (r : Run) (n : Nat) : Bool :=
  r.first ≤ n && n ≤ r.last && (n - r.first) % r.step == 0

/-- The capital form of a character; a character without one is its own. -/
def ofChar (c : Char) : Text :=
  match runs.find? (·.covers c.toNat) with
  | some r => [Char.ofNat (c.toNat + r.shift).toNat]
  | none =>
    match expansions.lookup c.toNat with
    | some units => units.map Char.ofNat
    | none => [c]

end UpperCase

namespace Text

/-- ASCII letters in lower case, all else unchanged. -/
def lowerAscii (t : Text) : Text := t.map Char.toLower

/-- Whether two texts differ at most in the case of ASCII letters. -/
def sameLetters (s t : Text) : Bool := lowerAscii s == lowerAscii t

/-- Every character in its full capital form. -/
def upper (t : Text) : Text := t.flatMap UpperCase.ofChar

end Text
end MapQuery
