/-!
# Shortest decimal digits

A finite floating-point number stands for every real number that rounds to it. Its shortest
decimal has the fewest digits of all decimals in that interval and is the nearest of those.
-/

set_option autoImplicit false

namespace MapQuery.Decimal

/-- A magnitude `mantissa * 2 ^ exponent`. -/
structure Binary where
  mantissa : Nat
  exponent : Int
  /-- The next smaller magnitude is at half the distance of the next larger one. -/
  narrowBelow : Bool

/-- The magnitude of a finite floating-point number. -/
def Binary.ofFloat (x : Float) : Binary :=
  let bits := x.toBits.toNat
  let fraction := bits % Nat.pow 2 52
  let scale : Nat := bits / Nat.pow 2 52 % Nat.pow 2 11
  if scale = 0 then ⟨fraction, -1074, false⟩
  else ⟨Nat.pow 2 52 + fraction, scale - 1075, fraction == 0 && scale > 1⟩

/-- A decimal `digits * 10 ^ exponent`. -/
structure Digits where
  digits : Nat
  exponent : Int

/-- Which of two equally near decimals is taken. -/
inductive Tie where
  | up
  | even

namespace Binary

/-- The nearest multiple of `10 ^ grid` that rounds to the magnitude, if there is one. -/
def onGrid (b : Binary) (tie : Tie) (grid : Int) : Option Nat :=
  let quarter := b.exponent - 2
  let unit := Nat.pow 10 grid.toNat * Nat.pow 2 (-quarter).toNat
  let scale := Nat.pow 2 quarter.toNat * Nat.pow 10 (-grid).toNat
  let value := 4 * b.mantissa * scale
  let low := (4 * b.mantissa - if b.narrowBelow then 1 else 2) * scale
  let high := (4 * b.mantissa + 2) * scale
  let isInside := fun d : Nat =>
    if b.mantissa % 2 = 0 then low ≤ d * unit ∧ d * unit ≤ high
    else low < d * unit ∧ d * unit < high
  let below := value / unit
  let above := below + 1
  if isInside below then
    if isInside above then
      match compare (2 * value) ((below + above) * unit) with
      | .lt => some below
      | .gt => some above
      | .eq =>
        match tie with
        | .up => some above
        | .even => some (if below % 2 = 0 then below else above)
    else some below
  else if isInside above then some above
  else none

/-- An exponent of ten above the magnitude, by at most two. -/
def topGrid (b : Binary) : Int :=
  (b.mantissa.log2 + 1 + b.exponent) * 30103 / 100000 + 1

/-- The shortest decimal of a positive magnitude; seventeen digits always suffice. -/
def shortest (b : Binary) (tie : Tie) : Digits :=
  let found := (List.range 21).findSome? fun i : Nat =>
    let grid := b.topGrid - (i : Int)
    (b.onGrid tie grid).map fun d => (⟨d, grid⟩ : Digits)
  found.getD ⟨0, 0⟩

end Binary
end MapQuery.Decimal
