import Mathlib.Tactic.IntervalCases
import MapQuery.Time.Calendar

/-!
# Days and dates

Every day of the calendar has a date, from which the day is found again.
-/

set_option autoImplicit false

namespace MapQuery.Date

/-- A day of an era by its century, its four years, its year and its day of the year, all of which
begin in March. Only the last of four years has a leap day, and that of a century only if it is the
last one of the era. -/
theorem exists_parts {day : Nat} (h : day < 146097) :
    ∃ c q y t, c ≤ 3 ∧ q ≤ 24 ∧ y ≤ 3 ∧ t ≤ 365 ∧ (t = 365 → y = 3 ∧ (q = 24 → c = 3)) ∧
      day = 36524 * c + 1461 * q + 365 * y + t := by
  refine ⟨min (day / 36524) 3, (day - 36524 * min (day / 36524) 3) / 1461,
    min ((day - 36524 * min (day / 36524) 3) % 1461 / 365) 3,
    (day - 36524 * min (day / 36524) 3) % 1461 -
      365 * min ((day - 36524 * min (day / 36524) 3) % 1461 / 365) 3, ?_⟩
  generalize hc : min (day / 36524) 3 = c
  have hcentury : c ≤ 3 ∧ 36524 * c ≤ day ∧ day - 36524 * c ≤ 36524 ∧
      (day - 36524 * c = 36524 → c = 3) := by
    omega
  generalize hr : day - 36524 * c = r at *
  generalize hs : r % 1461 = s
  generalize hy : min (s / 365) 3 = y
  have hlast : s < 1461 := by omega
  have hyear : y ≤ 3 ∧ 365 * y ≤ s ∧ s - 365 * y ≤ 365 := by omega
  omega

variable {c q y t : Nat}

theorem yearOfEra_eq {day : Nat} (hc : c ≤ 3) (hq : q ≤ 24) (hy : y ≤ 3) (ht : t ≤ 365)
    (hleap : t = 365 → y = 3 ∧ (q = 24 → c = 3)) (h : day = 36524 * c + 1461 * q + 365 * y + t) :
    (day - day / 1460 + day / 36524 - day / 146096) / 365 = 100 * c + 4 * q + y := by
  have hdays : day / 1460 = 25 * c + q + (24 * c + q + 365 * y + t) / 1460 := by omega
  have hcenturies : day / 36524 - day / 146096 = c ∧ day / 146096 ≤ day / 36524 := by omega
  -- Leap days are counted by what is carried here, which is too much by one only at the year's end.
  generalize hcarry : (24 * c + q + 365 * y + t) / 1460 = carry at hdays
  have hday : t = 365 ∧ carry = 1 ∨ t < 365 ∧ carry ≤ t := by omega
  omega

/-- The month and the day of a day of a year that begins in March. -/
def monthDay (t : Nat) : Nat × Nat :=
  let monthFromMarch := (5 * t + 2) / 153
  (if monthFromMarch < 10 then monthFromMarch + 3 else monthFromMarch - 9,
    t - (153 * monthFromMarch + 2) / 5 + 1)

theorem exists_ofDays (days : Int) : ∃ (era : Int) (c q y t : Nat),
    c ≤ 3 ∧ q ≤ 24 ∧ y ≤ 3 ∧ t ≤ 365 ∧ (t = 365 → y = 3 ∧ (q = 24 → c = 3)) ∧
      days = era * 146097 + (36524 * c + 1461 * q + 365 * y + t : Nat) - 719468 ∧
      ofDays days = ⟨era * 400 + (100 * c + 4 * q + y : Nat) +
        (if (monthDay t).1 ≤ 2 then 1 else 0), (monthDay t).1, (monthDay t).2⟩ := by
  have hday : ((days + 719468) % 146097).toNat < 146097 := by omega
  obtain ⟨c, q, y, t, hc, hq, hy, ht, hleap, hparts⟩ := exists_parts hday
  refine ⟨(days + 719468) / 146097, c, q, y, t, hc, hq, hy, ht, hleap, by omega, ?_⟩
  have hyear := yearOfEra_eq hc hq hy ht hleap hparts
  have hrest : ((days + 719468) % 146097).toNat - (365 * (100 * c + 4 * q + y) +
      (100 * c + 4 * q + y) / 4 - (100 * c + 4 * q + y) / 100) = t := by
    have hleaps : (100 * c + 4 * q + y) / 4 = 25 * c + q := by omega
    have hcenturies : (100 * c + 4 * q + y) / 100 = c := by omega
    rw [hparts, hleaps, hcenturies]
    omega
  simp only [ofDays, hyear, hrest]
  rfl

theorem monthDay_bounds (ht : t ≤ 365) : 1 ≤ (monthDay t).1 ∧ (monthDay t).1 ≤ 12 ∧
    1 ≤ (monthDay t).2 := by
  unfold monthDay
  dsimp only
  split <;> omega

theorem dayOfYear_monthDay (ht : t ≤ 365) :
    (153 * (if 2 < (monthDay t).1 then (monthDay t).1 - 3 else (monthDay t).1 + 9) + 2) / 5 +
      (monthDay t).2 - 1 = t := by
  have hmonth : (5 * t + 2) / 153 ≤ 11 := by omega
  have hstart : (153 * ((5 * t + 2) / 153) + 2) / 5 ≤ t := by omega
  unfold monthDay
  dsimp only
  generalize (5 * t + 2) / 153 = m at *
  have hcount : (if 2 < (if m < 10 then m + 3 else m - 9) then
      (if m < 10 then m + 3 else m - 9) - 3 else (if m < 10 then m + 3 else m - 9) + 9) = m := by
    split <;> split <;> omega
  rw [hcount]
  omega

theorem day_le_monthLength (year : Int) (ht : t ≤ 365)
    (hleap : t = 365 → isLeapYear year = true) :
    (monthDay t).2 ≤ monthLength year (monthDay t).1 := by
  have hmonth : (5 * t + 2) / 153 ≤ 11 := by omega
  unfold monthDay
  dsimp only
  generalize hm : (5 * t + 2) / 153 = m at *
  interval_cases m <;> simp only [monthLength] <;> norm_num <;> try omega
  -- In February the last day depends on the year.
  by_cases hlast : t = 365
  · rw [if_pos (hleap hlast)]
    omega
  · split <;> omega

theorem toDays_ofDays (days : Int) : (ofDays days).toDays = days := by
  obtain ⟨era, c, q, y, t, hc, hq, hy, ht, -, hdays, heq⟩ := exists_ofDays days
  have hday := dayOfYear_monthDay ht
  have hyear : (if (monthDay t).1 ≤ 2 then
      era * 400 + (100 * c + 4 * q + y : Nat) + (if (monthDay t).1 ≤ 2 then 1 else 0) - 1
      else era * 400 + (100 * c + 4 * q + y : Nat) + (if (monthDay t).1 ≤ 2 then 1 else 0)) =
      era * 400 + (100 * c + 4 * q + y : Nat) := by
    split <;> omega
  have hera : (era * 400 + (100 * c + 4 * q + y : Nat)) / 400 = era := by omega
  have hrest : ((era * 400 + (100 * c + 4 * q + y : Nat)) % 400).toNat = 100 * c + 4 * q + y := by
    omega
  rw [heq, toDays]
  dsimp only
  rw [hyear, hera, hrest, hday]
  omega

theorem month_le_two_iff (ht : t ≤ 365) : (monthDay t).1 ≤ 2 ↔ 306 ≤ t := by
  unfold monthDay
  dsimp only
  split <;> omega

variable {days : Int}

theorem firstYear_le (hfirst : -96465292 ≤ days) : firstYear ≤ (ofDays days).year := by
  obtain ⟨era, c, q, y, t, hc, hq, hy, ht, -, hdays, heq⟩ := exists_ofDays days
  have hera : -656 ≤ era := by omega
  have hjanuary := month_le_two_iff ht
  rw [heq, firstYear]
  dsimp only
  -- Only in the first of the eras do the days decide.
  rcases Int.lt_or_eq_of_le hera with hlater | rfl
  · split <;> omega
  · have hcentury : 2 ≤ c := by omega
    split <;> omega

theorem year_le_lastYear (hlast : days ≤ 95026236) : (ofDays days).year ≤ lastYear := by
  obtain ⟨era, c, q, y, t, hc, hq, hy, ht, -, hdays, heq⟩ := exists_ofDays days
  have hera : era ≤ 655 := by omega
  have hjanuary := month_le_two_iff ht
  rw [heq, lastYear]
  dsimp only
  rcases Int.lt_or_eq_of_le hera with hearlier | rfl
  · split <;> omega
  · have hcentury : c ≤ 1 := by omega
    split <;> omega

/-- Every day of the calendar is a date of it. -/
theorem ofParts?_ofDays (days : Int) (hfirst : -96465292 ≤ days) (hlast : days ≤ 95026236) :
    ofParts? (ofDays days).year (ofDays days).month (ofDays days).day = some (ofDays days) := by
  have hearly := firstYear_le hfirst
  have hlate := year_le_lastYear hlast
  obtain ⟨era, c, q, y, t, hc, hq, hy, ht, hleap, hdays, heq⟩ := exists_ofDays days
  obtain ⟨hmonth, hmonth', hday⟩ := monthDay_bounds ht
  rw [heq] at hearly hlate ⊢
  dsimp only at hearly hlate ⊢
  generalize hyear : era * 400 + (100 * c + 4 * q + y : Nat) +
    (if (monthDay t).1 ≤ 2 then 1 else 0) = year at *
  have hlength := day_le_monthLength year ht fun hlast => by
    obtain ⟨rfl, hend⟩ := hleap hlast
    rw [if_pos ((month_le_two_iff ht).2 (by omega))] at hyear
    have hfour : year % 4 = 0 := by omega
    have hcentury : year % 100 ≠ 0 ∨ year % 400 = 0 := by omega
    simp only [isLeapYear, Bool.and_eq_true, Bool.or_eq_true, beq_iff_eq, bne_iff_ne]
    exact ⟨hfour, hcentury⟩
  rw [ofParts?, if_neg (by omega), if_pos ⟨hmonth, hmonth', hday, hlength⟩]

theorem monthLength_le (year : Int) (month : Nat) : monthLength year month ≤ 31 := by
  unfold monthLength
  split
  · split <;> omega
  all_goals omega

theorem bounds_of_ofParts? {year : Int} {month day : Nat} {d : Date}
    (h : ofParts? year month day = some d) : month ≤ 12 ∧ day ≤ 31 := by
  unfold ofParts? at h
  split at h
  · cases h
  · split at h
    · next hparts =>
      obtain ⟨-, hmonth, -, hday⟩ := hparts
      exact ⟨hmonth, hday.trans (monthLength_le year month)⟩
    · cases h

end MapQuery.Date
