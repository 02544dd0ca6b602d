import MapQuery.Text.Blank
import MapQuery.Text.Case
import MapQuery.Time.Calendar
import MapQuery.Time.Instant

/-!
# Timestamps

Instants as text in universal time, written to the second or to the millisecond. Reading accepts
blanks between the parts, any sign and offset, and a fraction of any length.
-/

set_option autoImplicit false

namespace MapQuery.Timestamp

/-- A year: four digits from 0 to 9999, otherwise a sign and at least four digits. -/
def yearText (year : Int) : Text :=
  if 0 ≤ year ∧ year ≤ 9999 then Text.padded 4 year.toNat
  else (if year < 0 then '-' else '+') :: Text.padded 4 year.natAbs

/-- An instant in universal time; `millis` adds three digits of the second's fraction. -/
def write (millis : Bool) (a : Instant) : Text :=
  let date := Date.ofDays (a.second / 86400)
  let inDay := (a.second % 86400).toNat
  let second := inDay % 60 + a.nano / 1000000000
  let fraction : Text :=
    if millis then "." ++ Text.padded 3 (a.nano % 1000000000 / 1000000) else []
  yearText date.year ++ "-" ++ Text.padded 2 date.month ++ "-" ++ Text.padded 2 date.day ++ "T"
    ++ Text.padded 2 (inDay / 3600) ++ ":" ++ Text.padded 2 (inDay / 60 % 60) ++ ":"
    ++ Text.padded 2 second ++ fraction ++ "Z"

def number (digits : Text) : Nat := digits.foldl (fun n c => 10 * n + (c.toNat - '0'.toNat)) 0

/-- The number that a text starts with, of at most `width` digits, and the rest. -/
def splitNumber? (width : Nat) (t : Text) : Option (Nat × Text) :=
  let digits := (t.take width).takeWhile Char.isDigit
  if digits.isEmpty then none else some (number digits, t.drop digits.length)

/-- A number of at most two digits after blanks. -/
def splitPart? (t : Text) : Option (Nat × Text) := splitNumber? 2 t.trimStart

/-- A mark after blanks. -/
def splitMark? (mark : Char) (t : Text) : Option Text :=
  match t.trimStart with
  | c :: rest => if c = mark then some rest else none
  | [] => none

/-- A year after blanks: up to four digits, or a sign and any number of them. -/
def splitYear? (t : Text) : Option (Int × Text) :=
  match t.trimStart with
  | '-' :: rest => (splitNumber? rest.length rest).map fun r => (-(r.1 : Int), r.2)
  | '+' :: rest => (splitNumber? rest.length rest).map fun r => ((r.1 : Int), r.2)
  | rest => (splitNumber? 4 rest).map fun r => ((r.1 : Int), r.2)

/-- A fraction in nanoseconds; digits beyond the ninth are passed over. -/
def splitFraction? (t : Text) : Option (Nat × Text) :=
  match t with
  | '.' :: rest =>
    let digits := rest.takeWhile Char.isDigit
    let counted := digits.take 9
    if digits.isEmpty then none
    else some (number counted * Nat.pow 10 (9 - counted.length), rest.dropWhile Char.isDigit)
  | rest => some (0, rest)

/-- The seconds by which local time is ahead, written as two digits of hours and two of minutes. -/
def splitShift? (t : Text) : Option (Int × Text) :=
  match t with
  | h₁ :: h₂ :: rest =>
    match rest.dropWhile fun c => c == ':' || isBlank c with
    | m₁ :: m₂ :: rest =>
      if [h₁, h₂, m₁, m₂].all Char.isDigit && number [m₁, m₂] < 60 then
        some ((number [h₁, h₂] * 3600 + number [m₁, m₂] * 60 : Nat), rest)
      else none
    | _ => none
  | _ => none

/-- The offset that ends a timestamp: `UTC`, `Z`, or a signed shift of less than a day. -/
def splitOffset? (t : Text) : Option (Int × Text) :=
  let t := t.trimStart
  if Text.sameLetters (t.take 3) "UTC" then some (0, t.drop 3)
  else
    match t with
    | 'z' :: rest | 'Z' :: rest => some (0, rest)
    | '+' :: rest => splitShift? rest
    | '-' :: rest | '−' :: rest => (splitShift? rest).map fun r => (-r.1, r.2)
    | _ => none

/-- The character between date and time. -/
def splitJoint? (t : Text) : Option Text :=
  match t with
  | 'T' :: rest | 't' :: rest | ' ' :: rest => some rest
  | _ => none

/-- The instant of a timestamp. A second of sixty is the leap second after the 59th. -/
def read? (t : Text) : Option Instant := do
  let (year, t) ← splitYear? t
  let t ← splitMark? '-' t
  let (month, t) ← splitPart? t
  let t ← splitMark? '-' t
  let (day, t) ← splitPart? t
  let t ← splitJoint? t
  let (hour, t) ← splitPart? t
  let t ← splitMark? ':' t
  let (minute, t) ← splitPart? t
  let t ← splitMark? ':' t
  let (second, t) ← splitPart? t
  let (nano, t) ← splitFraction? t
  let (offset, t) ← splitOffset? t
  let date ← Date.ofParts? year month day
  if hour < 24 ∧ minute < 60 ∧ second ≤ 60 ∧ offset.natAbs < 86400 ∧ t.trimStart.isEmpty then
    let inDay := hour * 3600 + minute * 60 + min second 59
    Instant.ofParts? (date.toDays * 86400 + inDay - offset)
      (nano + if second = 60 then 1000000000 else 0)
  else none

end MapQuery.Timestamp
