import MapQuery.Json.Source

/-!
# JSON numbers

A number is a whole part without needless zeros, an optional fraction and an optional exponent.
Integers of 64 bits are exact. Real numbers are the leading digits that fit into 64 bits, scaled by
a power of ten in floating point; a number too large for that is out of range.
-/

set_option autoImplicit false

namespace MapQuery.Json

def digitValue (c : Char) : Nat := c.toNat - '0'.toNat

/-- Leading digits taken up while they fit into 64 bits: the sum and how many digits are left. -/
def takeUp (sum : Nat) : Text → Nat × Nat
  | [] => (sum, 0)
  | c :: rest =>
    if 10 * sum + digitValue c < Nat.pow 2 64 then takeUp (10 * sum + digitValue c) rest
    else (sum, rest.length + 1)

/-- `x * 10 ^ exponent` by one multiplication or division, after shifting down very small numbers.
Powers of ten reach up to 308; `none` is out of range. -/
def scaled (x : Float) (exponent : Int) : Nat → Option Float
  | 0 => some x
  | fuel + 1 =>
    if exponent.natAbs ≤ 308 then
      let power := Float.ofScientific 1 false exponent.natAbs
      if exponent < 0 then some (x / power)
      else if (x * power).isInf then none
      else some (x * power)
    else if x == 0 then some x
    else if 0 ≤ exponent then none
    else scaled (x / Float.ofScientific 1 false 308) (exponent + 308) fuel

/-- The exponent after the mark, `none` when it is beyond 32 bits, and the digits it is made of. -/
def exponentOf (digits : Text) : Option Nat :=
  digits.foldl (fun acc c => acc.bind fun n =>
    if 10 * n + digitValue c < Nat.pow 2 31 then some (10 * n + digitValue c) else none) (some 0)

/-- The real number with the given digits; `exponent` is its written exponent with its sign. -/
def realNumber (negative : Bool) (whole fraction : Text) (exponent : Bool × Text) :
    Except Fault Number :=
  let (sum, beyond) := takeUp 0 whole
  let (sum, unused) := takeUp sum fraction
  let shift : Int := beyond - (fraction.length - unused : Nat)
  let signed := fun x : Float => Number.real (if negative then -x else x)
  match exponentOf exponent.2 with
  | none =>
    if sum ≠ 0 ∧ exponent.1 = false then .error .malformed else .ok (signed 0)
  | some e =>
    match scaled (Float.ofNat sum) (if exponent.1 then shift - e else shift + e) 4 with
    | some x => .ok (signed x)
    | none => .error .malformed

/-- The number with the given whole part alone. -/
def wholeNumber (negative : Bool) (whole : Text) : Except Fault Number :=
  let (sum, beyond) := takeUp 0 whole
  if beyond ≠ 0 then realNumber negative whole [] (false, [])
  else if negative then
    if sum = 0 ∨ Nat.pow 2 63 < sum then .ok (.real (-(Float.ofNat sum))) else .ok (.int (-sum))
  else .ok (.int sum)

/-- The end of a text where a digit has to follow. -/
def missingDigit (rest : Text) : Break :=
  .nameless (if rest.isEmpty then .endOfText else .malformed) .malformed

/-- The exponent that follows, if there is one: whether it is negative, its digits, the rest. -/
def splitExponent (t : Text) : Except Break (Option (Bool × Text) × Text) :=
  match t with
  | [] => .ok (none, [])
  | c :: rest =>
    if c = 'e' ∨ c = 'E' then
      let (negative, rest) : Bool × Text :=
        match rest with
        | '+' :: r => (false, r)
        | '-' :: r => (true, r)
        | r => (false, r)
      let digits := rest.takeWhile Char.isDigit
      if digits.isEmpty then .error (missingDigit rest)
      else .ok (some (negative, digits), rest.dropWhile Char.isDigit)
    else .ok (none, t)

/-- The fraction that follows, if there is one, and the rest. -/
def splitFraction (t : Text) : Except Break (Option Text × Text) :=
  match t with
  | '.' :: rest =>
    let digits := rest.takeWhile Char.isDigit
    if digits.isEmpty then .error (missingDigit rest)
    else .ok (some digits, rest.dropWhile Char.isDigit)
  | _ => .ok (none, t)

/-- Reads the number that a text starts with, after its sign. -/
def splitNumber (negative : Bool) (t : Text) : Except Break (Except Fault Number × Text) := do
  let whole := t.takeWhile Char.isDigit
  if whole.isEmpty then .error (missingDigit t)
  else if whole.head? = some '0' ∧ 1 < whole.length then .error (.same .malformed)
  else
    let (fraction, rest) ← splitFraction (t.dropWhile Char.isDigit)
    let (exponent, rest) ← splitExponent rest
    match fraction, exponent with
    | none, none => .ok (wholeNumber negative whole, rest)
    | _, _ =>
      .ok (realNumber negative whole (fraction.getD []) (exponent.getD (false, [])), rest)

end MapQuery.Json
