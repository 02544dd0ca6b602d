import MapQuery.Proofs.Text.Figures
import MapQuery.Proofs.Time.Calendar

/-!
# Timestamps that are read back

A written timestamp denotes the instant it was written for, to the precision that it shows.
-/

set_option autoImplicit false

namespace MapQuery

namespace Text

theorem padded_ne_nil (width n : Nat) : padded width n ≠ [] := by
  intro h
  exact Nat.toDigits_ne_nil (List.append_eq_nil_iff.1 h).2

theorem exists_padded_eq_cons (width n : Nat) :
    ∃ c digits, padded width n = c :: digits ∧ c.isDigit = true := by
  obtain ⟨c, digits, h⟩ := List.exists_cons_of_ne_nil (padded_ne_nil width n)
  have hmem : c ∈ padded width n := by
    rw [h]
    exact List.mem_cons_self
  exact ⟨c, digits, h, isDigit_of_mem_padded hmem⟩

theorem length_padded {width n : Nat} (hwidth : 0 < width) (h : n < 10 ^ width) :
    (padded width n).length = width := by
  have hlength : (natural n).length ≤ width :=
    (Nat.length_toDigits_le_iff (by decide) hwidth).2 h
  rw [padded, List.length_append, List.length_replicate]
  omega

end Text

namespace Timestamp

variable {rest : Text}

theorem number_padded (width n : Nat) : number (Text.padded width n) = n := by
  have hfold : number (Text.padded width n) = Nat.ofDigitChars 10 (Text.padded width n) 0 := rfl
  rw [hfold, Text.padded, Nat.ofDigitChars_append, Nat.ofDigitChars_replicate_zero, Nat.mul_zero]
  exact Nat.ofDigitChars_ten_toDigits

theorem takeWhile_digits {digits : Text} (h : ∀ c ∈ digits, c.isDigit = true)
    (hrest : ∀ c ∈ rest.head?, c.isDigit = false) :
    (digits ++ rest).takeWhile Char.isDigit = digits := by
  rw [List.takeWhile_append_of_pos h]
  cases rest with
  | nil => exact List.append_nil digits
  | cons c rest =>
    have hc := hrest c rfl
    rw [List.takeWhile_cons_of_neg (by simp [hc]), List.append_nil]

/-- Digits are a number where the width or a character other than a digit ends them. -/
theorem splitNumber?_padded {limit width n : Nat}
    (h : (Text.padded width n).length = limit ∨
      (Text.padded width n).length ≤ limit ∧ ∀ c ∈ rest.head?, c.isDigit = false) :
    splitNumber? limit (Text.padded width n ++ rest) = some (n, rest) := by
  have hdigits : ((Text.padded width n ++ rest).take limit).takeWhile Char.isDigit =
      Text.padded width n := by
    rw [List.take_append]
    rcases h with hlimit | ⟨hlimit, hrest⟩
    · rw [← hlimit, List.take_length, Nat.sub_self, List.take_zero]
      exact takeWhile_digits (fun _ => Text.isDigit_of_mem_padded) (by simp)
    · rw [List.take_of_length_le hlimit]
      refine takeWhile_digits (fun _ => Text.isDigit_of_mem_padded) fun c hc => ?_
      rw [List.head?_take] at hc
      split at hc
      · cases hc
      · exact hrest c hc
  have hempty : (Text.padded width n).isEmpty = false :=
    List.isEmpty_eq_false_iff.2 (Text.padded_ne_nil width n)
  simp only [splitNumber?, hdigits, hempty, Bool.false_eq_true, if_false, number_padded,
    List.drop_left]

theorem trimStart_padded (width n : Nat) :
    Text.trimStart (Text.padded width n ++ rest) = Text.padded width n ++ rest := by
  obtain ⟨c, digits, hdigits, hdigit⟩ := Text.exists_padded_eq_cons width n
  rw [hdigits]
  exact Text.trimStart_cons (isBlank_of_isDigit hdigit) _

theorem splitPart?_padded {n : Nat} (h : n < 100) :
    splitPart? (Text.padded 2 n ++ rest) = some (n, rest) := by
  rw [splitPart?, trimStart_padded]
  exact splitNumber?_padded (.inl (Text.length_padded (by decide) h))

theorem splitMark?_cons {mark : Char} (h : isBlank mark = false) :
    splitMark? mark (mark :: rest) = some rest := by
  rw [splitMark?, Text.trimStart_cons h]
  exact if_pos rfl

theorem splitYear?_yearText (year : Int) :
    splitYear? (yearText year ++ '-' :: rest) = some (year, '-' :: rest) := by
  have hdash : ∀ c ∈ ('-' :: rest).head?, c.isDigit = false := by simp
  have hlimit (n : Nat) : (Text.padded 4 n).length ≤ (Text.padded 4 n ++ '-' :: rest).length := by
    rw [List.length_append]
    exact Nat.le_add_right _ _
  by_cases hplain : 0 ≤ year ∧ year ≤ 9999
  · have hlength : (Text.padded 4 year.toNat).length = 4 :=
      Text.length_padded (by decide) (by omega)
    have hsplit : splitNumber? 4 (Text.padded 4 year.toNat ++ '-' :: rest) =
        some (year.toNat, '-' :: rest) := splitNumber?_padded (.inl hlength)
    obtain ⟨c, digits, hdigits, hdigit⟩ := Text.exists_padded_eq_cons 4 year.toNat
    rw [yearText, if_pos hplain, splitYear?, trimStart_padded]
    rw [hdigits] at hsplit ⊢
    rw [List.cons_append] at hsplit ⊢
    split
    · next hc =>
      rw [(List.cons.inj hc).1] at hdigit
      exact absurd hdigit (by decide)
    · next hc =>
      rw [(List.cons.inj hc).1] at hdigit
      exact absurd hdigit (by decide)
    · rw [hsplit, Option.map_some, Int.toNat_of_nonneg hplain.1]
  · rw [yearText, if_neg hplain]
    by_cases hnegative : year < 0
    · rw [if_pos hnegative, List.cons_append, splitYear?, Text.trimStart_cons (by decide)]
      simp only [splitNumber?_padded (.inr ⟨hlimit year.natAbs, hdash⟩), Option.map_some]
      rw [show -(year.natAbs : Int) = year by omega]
    · rw [if_neg hnegative, List.cons_append, splitYear?, Text.trimStart_cons (by decide)]
      simp only [splitNumber?_padded (.inr ⟨hlimit year.natAbs, hdash⟩), Option.map_some]
      rw [show (year.natAbs : Int) = year by omega]

/-- What a timestamp shows of a fraction: as many milliseconds as there are, or nothing. -/
theorem splitFraction?_written (nano : Nat) (h : nano < 1000000000) (millis : Bool) :
    splitFraction? ((if millis then "." ++ Text.padded 3 (nano / 1000000) else []) ++ ['Z']) =
      some (if millis then nano / 1000000 * 1000000 else 0, ['Z']) := by
  cases millis with
  | false => rfl
  | true =>
    have hlength : (Text.padded 3 (nano / 1000000)).length = 3 :=
      Text.length_padded (by decide) (by omega)
    have hdigits : (Text.padded 3 (nano / 1000000) ++ ['Z']).takeWhile Char.isDigit =
        Text.padded 3 (nano / 1000000) :=
      takeWhile_digits (fun _ => Text.isDigit_of_mem_padded) (by simp)
    have hrest : (Text.padded 3 (nano / 1000000) ++ ['Z']).dropWhile Char.isDigit = ['Z'] :=
      List.dropWhile_append_of_pos fun _ => Text.isDigit_of_mem_padded
    have hempty : (Text.padded 3 (nano / 1000000)).isEmpty = false :=
      List.isEmpty_eq_false_iff.2 (Text.padded_ne_nil 3 _)
    have hcounted : (Text.padded 3 (nano / 1000000)).take 9 = Text.padded 3 (nano / 1000000) :=
      List.take_of_length_le (by omega)
    change splitFraction? ('.' :: (Text.padded 3 (nano / 1000000) ++ ['Z'])) = _
    simp only [splitFraction?, hdigits, hrest, hempty, hcounted, hlength, number_padded, if_true,
      Bool.false_eq_true, if_false]

end Timestamp

namespace Instant

/-- The instant at the start of its millisecond, or of its second or leap second. -/
def shown (millis : Bool) (a : Instant) : Instant :=
  { a with
    nano := a.nano / 1000000000 * 1000000000 +
      (if millis then a.nano % 1000000000 / 1000000 * 1000000 else 0)
    nano_lt := by
      have := a.nano_lt
      split <;> omega
    leap := by
      intro h
      apply a.leap
      revert h
      split <;> omega }

theorem second_shown (millis : Bool) (a : Instant) : (a.shown millis).second = a.second := rfl

theorem nano_shown (a : Instant) : (a.shown true).nano = a.nano / 1000000 * 1000000 := by
  simp only [shown, if_true]
  omega

theorem ofParts?_eq_some (a : Instant) : ofParts? a.second a.nano = some a :=
  dif_pos ⟨a.second_ge, a.second_le, a.nano_lt, a.leap⟩

end Instant

theorem Timestamp.read?_write (millis : Bool) (a : Instant) :
    read? (write millis a) = some (a.shown millis) := by
  have hfirst := a.second_ge
  have hlast := a.second_le
  have hnano := a.nano_lt
  have hleap := a.leap
  have hdate := Date.ofParts?_ofDays (a.second / 86400) (by omega) (by omega)
  have hdays := Date.toDays_ofDays (a.second / 86400)
  obtain ⟨hmonth, hday⟩ := Date.bounds_of_ofParts? hdate
  generalize hdateOf : Date.ofDays (a.second / 86400) = date at *
  generalize hinDay : (a.second % 86400).toNat = inDay
  have hend : splitOffset? ['Z'] = some (0, []) := rfl
  have hfraction := splitFraction?_written (a.nano % 1000000000) (by omega) millis
  have htext : write millis a = yearText date.year ++ '-' :: (Text.padded 2 date.month ++ '-' ::
      (Text.padded 2 date.day ++ 'T' :: (Text.padded 2 (inDay / 3600) ++ ':' ::
        (Text.padded 2 (inDay / 60 % 60) ++ ':' ::
          (Text.padded 2 (inDay % 60 + a.nano / 1000000000) ++
            ((if millis then "." ++ Text.padded 3 (a.nano % 1000000000 / 1000000) else []) ++
              ['Z'])))))) := by
    rw [write, hdateOf, hinDay]
    simp [List.append_assoc]
  have hdash : isBlank '-' = false := by decide
  have hcolon : isBlank ':' = false := by decide
  have htime : inDay / 3600 < 24 ∧ inDay / 60 % 60 < 60 ∧
      inDay % 60 + a.nano / 1000000000 ≤ 60 := by
    omega
  rw [htext, read?]
  dsimp only [Option.bind_eq_bind]
  rw [splitYear?_yearText, Option.bind_some, splitMark?_cons hdash, Option.bind_some,
    splitPart?_padded (by omega), Option.bind_some, splitMark?_cons hdash, Option.bind_some,
    splitPart?_padded (by omega), Option.bind_some, splitJoint?, Option.bind_some,
    splitPart?_padded (by omega), Option.bind_some, splitMark?_cons hcolon, Option.bind_some,
    splitPart?_padded (by omega), Option.bind_some, splitMark?_cons hcolon, Option.bind_some,
    splitPart?_padded (by omega), Option.bind_some, hfraction, Option.bind_some, hend,
    Option.bind_some, hdate, Option.bind_some, if_pos ⟨htime.1, htime.2.1, htime.2.2, by decide, rfl⟩]
  -- a leap second is written as second 60 and read as the second before it with a carry
  have hsecond : date.toDays * 86400 + (inDay / 3600 * 3600 + inDay / 60 % 60 * 60 +
      min (inDay % 60 + a.nano / 1000000000) 59 : Nat) - 0 = a.second := by
    rw [hdays]
    omega
  have hnano' : (if millis then a.nano % 1000000000 / 1000000 * 1000000 else 0) +
      (if inDay % 60 + a.nano / 1000000000 = 60 then 1000000000 else 0) =
        (a.shown millis).nano := by
    have hcarry : (if inDay % 60 + a.nano / 1000000000 = 60 then 1000000000 else 0) =
        a.nano / 1000000000 * 1000000000 := by
      split <;> omega
    rw [hcarry, Nat.add_comm]
    rfl
  rw [hsecond, hnano']
  exact Instant.ofParts?_eq_some (a.shown millis)

end MapQuery
