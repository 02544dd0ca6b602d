import MapQuery.Decimal.Shortest
import MapQuery.Text.Basic

/-!
# Layouts of real numbers

The plain layout has no exponents and no fraction for whole numbers. The JSON layout always has a
fraction or an exponent, and writes numbers from `1e-5` up to `1e16` without an exponent.
-/

set_option autoImplicit false

namespace MapQuery.Decimal

/-- How a real number is laid out as text. -/
structure Layout where
  tie : Tie
  /-- Whether there is no exponent when the point stands after this many digits. -/
  positional : Int → Bool
  wholeEnd : Text

/-- Whole numbers have no fraction and nothing has an exponent. -/
def Layout.plain : Layout := ⟨.up, fun _ => true, []⟩

/-- A fraction or an exponent tells a real number from an integer. -/
def Layout.json : Layout := ⟨.even, fun point => -5 < point && point ≤ 16, ".0"⟩

/-- Digits with a point after the first `point` of them, filled up with zeros. -/
def withPoint (digits : Text) (point : Int) (wholeEnd : Text) : Text :=
  if point ≤ 0 then
    "0." ++ List.replicate (-point).toNat '0' ++ digits
  else if digits.length ≤ point.toNat then
    digits ++ List.replicate (point.toNat - digits.length) '0' ++ wholeEnd
  else digits.take point.toNat ++ "." ++ digits.drop point.toNat

/-- Digits with a point after the first and a signed exponent. -/
def withExponent (digits : Text) (point : Int) : Text :=
  let exponent := point - 1
  let sign : Text := if exponent < 0 then "-" else "+"
  let fraction : Text := if digits.length ≤ 1 then [] else "." ++ digits.drop 1
  digits.take 1 ++ fraction ++ "e" ++ sign ++ Text.natural exponent.natAbs

/-- The text of a finite number; negative zero keeps its sign. -/
def Layout.write (l : Layout) (x : Float) : Text :=
  let sign : Text := if x.toBits.toNat / Nat.pow 2 63 = 1 then "-" else []
  if x == 0 then sign ++ "0" ++ l.wholeEnd
  else
    let d := (Binary.ofFloat x).shortest l.tie
    let digits := Text.natural d.digits
    let point := digits.length + d.exponent
    sign ++ if l.positional point then withPoint digits point l.wholeEnd
      else withExponent digits point

end MapQuery.Decimal
