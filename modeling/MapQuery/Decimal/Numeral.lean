import MapQuery.Text.Basic

/-!
# Decimal numerals

The numerals that read as real numbers: a sign, digits around an optional point, an exponent. A
numeral is finite when its value does not round beyond the largest floating-point number.
-/

set_option autoImplicit false

namespace MapQuery.Decimal

/-- A numeral without its sign, `digits * 10 ^ exponent`. -/
structure Numeral where
  digits : Nat
  exponent : Int

def digitsValue (t : Text) : Nat := t.foldl (fun n c => 10 * n + (c.toNat - '0'.toNat)) 0

/-- The value of exponent digits, which no longer grows once it is out of all bounds. -/
def exponentValue (t : Text) : Nat :=
  t.foldl (fun n c => if n < 65536 then 10 * n + (c.toNat - '0'.toNat) else n) 0

/-- The text without one sign in front, and whether that was a minus sign. -/
def splitSign : Text → Bool × Text
  | '-' :: t => (true, t)
  | '+' :: t => (false, t)
  | t => (false, t)

/-- The exponent that ends a numeral; none is zero. -/
def exponentOf? (t : Text) : Option Int :=
  match t with
  | [] => some 0
  | c :: t =>
    if c = 'e' ∨ c = 'E' then
      let (negative, digits) := splitSign t
      if digits.isEmpty ∨ ¬ digits.all Char.isDigit then none
      else if negative then some (-exponentValue digits)
      else some (exponentValue digits)
    else none

namespace Numeral

/-- Reads a numeral; there is at least one digit before or after the point. -/
def ofText? (t : Text) : Option Numeral :=
  let t := (splitSign t).2
  let whole := t.takeWhile Char.isDigit
  let rest := t.dropWhile Char.isDigit
  let (fraction, rest) : Text × Text :=
    match rest with
    | '.' :: r => (r.takeWhile Char.isDigit, r.dropWhile Char.isDigit)
    | r => ([], r)
  if whole.isEmpty && fraction.isEmpty then none
  else (exponentOf? rest).map fun e => ⟨digitsValue (whole ++ fraction), e - fraction.length⟩

/-- The first magnitude that rounds beyond every finite number. -/
def overflow : Nat := Nat.pow 2 1024 - Nat.pow 2 970

/-- Whether the value stays below the bound of the finite numbers. -/
def isFinite (n : Numeral) : Bool :=
  let size := (Text.natural n.digits).length + n.exponent
  if n.digits = 0 then true
  else if size < 300 then true
  else if 320 < size then false
  else n.digits * Nat.pow 10 n.exponent.toNat < overflow * Nat.pow 10 (-n.exponent).toNat

end Numeral

def isFiniteNumeral (t : Text) : Bool := (Numeral.ofText? t).any Numeral.isFinite

end MapQuery.Decimal
