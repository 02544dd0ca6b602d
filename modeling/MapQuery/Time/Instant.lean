/-!
# Instants

An instant is a second since the start of 1970 and a nanosecond within it. A leap second is the
continuation of the last second of a minute, with nanoseconds from one to two thousand million.
-/

set_option autoImplicit false

namespace MapQuery

/-- An instant in the calendar's range, to the nanosecond. -/
@[ext] structure Instant where
  second : Int
  nano : Nat
  second_ge : -8334601228800 ≤ second
  second_le : second ≤ 8210266876799
  nano_lt : nano < 2000000000
  leap : 1000000000 ≤ nano → second % 60 = 59
  deriving DecidableEq

namespace Instant

/-- The instant of a second and a nanosecond, if there is one. -/
def ofParts? (second : Int) (nano : Nat) : Option Instant :=
  if h : -8334601228800 ≤ second ∧ second ≤ 8210266876799 ∧ nano < 2000000000 ∧
      (1000000000 ≤ nano → second % 60 = 59) then
    some ⟨second, nano, h.1, h.2.1, h.2.2.1, h.2.2.2⟩
  else none

def notAfter (a b : Instant) : Bool :=
  a.second < b.second || (a.second == b.second && a.nano ≤ b.nano)

/-- The instant at the start of its second or leap second. -/
def floorSecond (a : Instant) : Instant :=
  if h : a.nano < 1000000000 then
    { a with nano := 0, nano_lt := by decide, leap := fun h => absurd h (by decide) }
  else
    { a with
      nano := 1000000000, nano_lt := by decide, leap := fun _ => a.leap (Nat.le_of_not_lt h) }

/-- The earliest whole second that is not before the instant, unless it is out of range. -/
def ceilSecond? (a : Instant) : Option Instant :=
  if a.floorSecond.nano = a.nano then some a else ofParts? (a.second + 1) 0

/-- Milliseconds since the start of 1970, cut off; a leap second counts on beyond its minute. -/
def milliseconds (a : Instant) : Int := a.second * 1000 + a.nano / 1000000

end Instant
end MapQuery
