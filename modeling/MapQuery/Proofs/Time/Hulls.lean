import MapQuery.Proofs.Dialect.TimeWindows

/-!
# Hulls of time windows

To whole seconds a window is rounded to its hull, less than a second wider at either end. A leap
second is passed over where the instant before it is rounded up: it is there only for instants that
lie in it. But for this a wider window has a wider hull.
-/

set_option autoImplicit false

namespace MapQuery

namespace Instant

/-- Whether an instant is the start of a second or of a leap second. -/
def IsWhole (a : Instant) : Prop := a.nano % 1000000000 = 0

instance (a : Instant) : Decidable a.IsWhole := inferInstanceAs (Decidable (_ = _))

/-- The nanoseconds from an instant to one that is not before it. A leap second is counted where the
first of them lies in it. -/
def elapsed (a b : Instant) : Int :=
  (b.second - a.second) * 1000000000 + b.nano - a.nano +
    if a.second < b.second ∧ 1000000000 ≤ a.nano then 1000000000 else 0

/-- Whether rounding up an instant passes over another one, which starts the leap second at the end
of its second. -/
structure PassesOver (a b : Instant) : Prop where
  second_eq : a.second = b.second
  nano_pos : 0 < a.nano
  nano_lt : a.nano < 1000000000
  leap : b.nano = 1000000000

instance (a b : Instant) : Decidable (a.PassesOver b) :=
  decidable_of_iff
    (a.second = b.second ∧ 0 < a.nano ∧ a.nano < 1000000000 ∧ b.nano = 1000000000)
    ⟨fun h => ⟨h.1, h.2.1, h.2.2.1, h.2.2.2⟩, fun h => ⟨h.1, h.2, h.3, h.4⟩⟩

variable {a b g : Instant}

theorem moment_le_iff :
    a.moment ≤ b.moment ↔ a.second < b.second ∨ a.second = b.second ∧ a.nano ≤ b.nano :=
  Prod.Lex.toLex_le_toLex

theorem isWhole_iff : a.IsWhole ↔ a.nano = 0 ∨ a.nano = 1000000000 := by
  have hnano := a.nano_lt
  unfold IsWhole
  omega

/-! ## Rounding down -/

theorem second_floorSecond (a : Instant) : a.floorSecond.second = a.second := by
  unfold floorSecond
  split <;> rfl

theorem nano_floorSecond (a : Instant) :
    a.floorSecond.nano = a.nano / 1000000000 * 1000000000 := by
  have hnano := a.nano_lt
  unfold floorSecond
  split
  · next hplain =>
    change 0 = _
    omega
  · next hleap =>
    change 1000000000 = _
    omega

theorem isWhole_floorSecond (a : Instant) : a.floorSecond.IsWhole := by
  rw [IsWhole, nano_floorSecond]
  exact Nat.mul_mod_left _ _

theorem floorSecond_eq_self (h : a.IsWhole) : a.floorSecond = a := by
  refine Instant.ext (second_floorSecond a) ?_
  rw [nano_floorSecond]
  exact Nat.div_mul_cancel (Nat.dvd_of_mod_eq_zero h)

theorem elapsed_floorSecond (a : Instant) : a.floorSecond.elapsed a < 1000000000 := by
  rw [elapsed, second_floorSecond, nano_floorSecond, if_neg (by simp)]
  omega

/-- No whole second lies between an instant and the one it is rounded down to. -/
theorem le_floorSecond_iff (hg : g.IsWhole) :
    g.moment ≤ a.floorSecond.moment ↔ g.moment ≤ a.moment := by
  have hnano := a.nano_lt
  rw [moment_le_iff, moment_le_iff, second_floorSecond, nano_floorSecond]
  rcases isWhole_iff.1 hg with h | h <;> omega

/-! ## Rounding up -/

theorem ceilSecond?_of_isWhole (h : a.IsWhole) : a.ceilSecond? = some a := by
  rw [ceilSecond?, floorSecond_eq_self h]
  exact if_pos rfl

/-- Anything but a whole second is rounded up to the start of the next one. -/
theorem ceilSecond?_of_not_isWhole (h : ¬a.IsWhole) :
    a.ceilSecond? = ofParts? (a.second + 1) 0 := by
  have hne : a.floorSecond.nano ≠ a.nano := by
    rw [IsWhole] at h
    rw [nano_floorSecond]
    omega
  rw [ceilSecond?, if_neg hne]

theorem eq_some_of_ofParts? {second : Int} {nano : Nat} (h : ofParts? second nano = some b) :
    b.second = second ∧ b.nano = nano := by
  unfold ofParts? at h
  split at h
  · rw [← Option.some.inj h]
    exact ⟨rfl, rfl⟩
  · cases h

theorem ceilSecond?_cases (h : a.ceilSecond? = some b) :
    a.IsWhole ∧ b = a ∨ ¬a.IsWhole ∧ b.second = a.second + 1 ∧ b.nano = 0 := by
  by_cases ha : a.IsWhole
  · rw [ceilSecond?_of_isWhole ha] at h
    exact .inl ⟨ha, (Option.some.inj h).symm⟩
  · rw [ceilSecond?_of_not_isWhole ha] at h
    exact .inr ⟨ha, eq_some_of_ofParts? h⟩

/-- Only in the last second of the calendar there is nothing to round up to. -/
theorem isSome_ceilSecond?_iff :
    a.ceilSecond?.isSome = true ↔ (a.second = 8210266876799 → a.IsWhole) := by
  have hfirst := a.second_ge
  have hlast := a.second_le
  by_cases ha : a.IsWhole
  · simp [ceilSecond?_of_isWhole ha, ha]
  · rw [ceilSecond?_of_not_isWhole ha, ofParts?]
    split
    · next h =>
      simp only [Option.isSome_some, true_iff]
      omega
    · next h =>
      simp only [Option.isSome_none, Bool.false_eq_true, ha, imp_false, false_iff, not_not]
      omega

theorem isWhole_of_ceilSecond? (h : a.ceilSecond? = some b) : b.IsWhole := by
  rcases ceilSecond?_cases h with ⟨ha, rfl⟩ | ⟨-, -, hnano⟩
  · exact ha
  · rw [IsWhole, hnano]

theorem elapsed_of_ceilSecond? (h : a.ceilSecond? = some b) : a.elapsed b < 1000000000 := by
  have hnano := a.nano_lt
  rcases ceilSecond?_cases h with ⟨-, rfl⟩ | ⟨ha, hsecond, hzero⟩
  · rw [elapsed, if_neg (by simp)]
    omega
  · rw [IsWhole] at ha
    rw [elapsed, hsecond, hzero]
    split <;> omega

/-- No whole second lies between an instant and the one it is rounded up to, except for the start of
a leap second that is passed over. -/
theorem ceilSecond?_le_iff (h : a.ceilSecond? = some b) (hg : g.IsWhole) :
    b.moment ≤ g.moment ↔ a.moment ≤ g.moment ∧ ¬a.PassesOver g := by
  have hover : a.PassesOver g ↔
      a.second = g.second ∧ 0 < a.nano ∧ a.nano < 1000000000 ∧ g.nano = 1000000000 :=
    ⟨fun h => ⟨h.1, h.2, h.3, h.4⟩, fun h => ⟨h.1, h.2.1, h.2.2.1, h.2.2.2⟩⟩
  have hnano := a.nano_lt
  rw [moment_le_iff, moment_le_iff, hover]
  rcases ceilSecond?_cases h with ⟨ha, rfl⟩ | ⟨ha, hsecond, hzero⟩
  · rw [isWhole_iff] at ha
    omega
  · rw [isWhole_iff] at ha hg
    rw [hsecond, hzero]
    omega

/-- What is passed over was not rounded up to: it is a bound that was whole before. -/
theorem passesOver_ceilSecond?_iff (h : b.ceilSecond? = some g) :
    a.PassesOver g ↔ a.PassesOver b := by
  rcases ceilSecond?_cases h with ⟨-, rfl⟩ | ⟨hb, -, hzero⟩
  · rfl
  · constructor
    · intro hover
      exact absurd (hzero.symm.trans hover.leap) (by decide)
    · intro hover
      exact absurd (isWhole_iff.2 (.inr hover.leap)) hb

end Instant

namespace TimeWindow

open Instant

/-- Whether two whole seconds enclose a window as closely as they can. -/
structure IsHull (w : TimeWindow) (lower upper : Instant) : Prop where
  lower_isWhole : lower.IsWhole
  upper_isWhole : upper.IsWhole
  lower_le : lower.moment ≤ w.lower.moment
  ordered : w.lower.moment ≤ w.upper.moment
  le_upper : w.upper.moment ≤ upper.moment
  lower_close : lower.elapsed w.lower < 1000000000
  upper_close : w.upper.elapsed upper < 1000000000
  lower_eq : w.lower.IsWhole → lower = w.lower
  upper_eq : w.upper.IsWhole → upper = w.upper

/-- Whether a window lies within another. -/
def Within (w v : TimeWindow) : Prop :=
  v.lower.moment ≤ w.lower.moment ∧ w.upper.moment ≤ v.upper.moment

variable {v w : TimeWindow} {lower upper lower' upper' : Instant}

theorem bounds?_true_eq_some_iff :
    w.bounds? true = some (lower, upper) ↔
      lower = w.lower.floorSecond ∧ w.upper.ceilSecond? = some upper := by
  simp only [bounds?, if_true, Option.map_eq_some_iff, Prod.mk.injEq]
  constructor
  · rintro ⟨b, hb, rfl, rfl⟩
    exact ⟨rfl, hb⟩
  · rintro ⟨rfl, hupper⟩
    exact ⟨upper, hupper, rfl, rfl⟩

theorem isHull_of_bounds? (h : w.bounds? true = some (lower, upper)) : w.IsHull lower upper := by
  obtain ⟨hlower, hupper⟩ := bounds?_true_covers h
  obtain ⟨rfl, hceil⟩ := bounds?_true_eq_some_iff.1 h
  refine ⟨isWhole_floorSecond _, isWhole_of_ceilSecond? hceil, hlower,
    Instant.notAfter_iff.1 w.ordered, hupper, elapsed_floorSecond _, elapsed_of_ceilSecond? hceil,
    floorSecond_eq_self, ?_⟩
  intro hwhole
  rw [ceilSecond?_of_isWhole hwhole] at hceil
  exact (Option.some.inj hceil).symm

/-- A hull is the hull of itself. -/
theorem IsHull.bounds?_eq (h : w.IsHull lower upper) (startColumn : Text)
    (endColumn? : Option Text) : ∃ v, ofBounds? startColumn endColumn? lower upper = some v ∧
      v.bounds? true = some (lower, upper) := by
  have hordered : lower.notAfter upper = true :=
    Instant.notAfter_iff.2 ((h.lower_le.trans h.ordered).trans h.le_upper)
  refine ⟨⟨startColumn, endColumn?, lower, upper, hordered⟩, dif_pos hordered, ?_⟩
  exact bounds?_true_eq_some_iff.2
    ⟨(floorSecond_eq_self h.lower_isWhole).symm, ceilSecond?_of_isWhole h.upper_isWhole⟩

/-- The lower bound of a wider window is never later. -/
theorem Within.lower_le (h : w.Within v) (hv : v.bounds? true = some (lower', upper'))
    (hw : w.bounds? true = some (lower, upper)) : lower'.moment ≤ lower.moment := by
  obtain ⟨rfl, -⟩ := bounds?_true_eq_some_iff.1 hv
  obtain ⟨rfl, -⟩ := bounds?_true_eq_some_iff.1 hw
  rw [le_floorSecond_iff (isWhole_floorSecond _)]
  exact (floorSecond_le v.lower).trans h.1

/-- The upper bound of a wider window is earlier only if it is a leap second passed over. -/
theorem Within.upper_le_iff (h : w.Within v) (hv : v.bounds? true = some (lower', upper'))
    (hw : w.bounds? true = some (lower, upper)) :
    upper.moment ≤ upper'.moment ↔ ¬w.upper.PassesOver v.upper := by
  obtain ⟨-, hceil'⟩ := bounds?_true_eq_some_iff.1 hv
  obtain ⟨-, hceil⟩ := bounds?_true_eq_some_iff.1 hw
  have hle : w.upper.moment ≤ upper'.moment := h.2.trans (le_ceilSecond? hceil')
  rw [ceilSecond?_le_iff hceil (isWhole_of_ceilSecond? hceil'), passesOver_ceilSecond?_iff hceil']
  exact and_iff_right hle

/-- A window that does not end in the middle of the calendar's last second is rounded to its hull,
which is its own hull. A window within another has its hull within the other's hull, except where it
ends in the second before the leap second at whose start the other one ends. -/
theorem bounds?_isHull (w : TimeWindow)
    (h : w.upper.second = 8210266876799 → w.upper.IsWhole) :
    ∃ lower upper, w.bounds? true = some (lower, upper) ∧ w.IsHull lower upper ∧
      (∃ hull, ofBounds? w.startColumn w.endColumn? lower upper = some hull ∧
        hull.bounds? true = some (lower, upper)) ∧
      ∀ v lower' upper', v.bounds? true = some (lower', upper') → w.Within v →
        lower'.moment ≤ lower.moment ∧
          (upper.moment ≤ upper'.moment ↔ ¬w.upper.PassesOver v.upper) := by
  obtain ⟨upper, hupper⟩ := Option.isSome_iff_exists.1 (isSome_ceilSecond?_iff.2 h)
  have hbounds : w.bounds? true = some (w.lower.floorSecond, upper) :=
    bounds?_true_eq_some_iff.2 ⟨rfl, hupper⟩
  have hhull := isHull_of_bounds? hbounds
  refine ⟨w.lower.floorSecond, upper, hbounds, hhull, hhull.bounds?_eq _ _, ?_⟩
  intro v lower' upper' hv hwithin
  exact ⟨hwithin.lower_le hv hbounds, hwithin.upper_le_iff hv hbounds⟩

/-- From within the leap second before 1970 to within another one. -/
theorem bounds?_isHull_of_leap_seconds :
    let w : TimeWindow :=
      ⟨"t", none, ⟨-1, 1500000000, by decide, by decide, by decide, by decide⟩,
        ⟨59, 1000000001, by decide, by decide, by decide, by decide⟩, by decide⟩
    let v : TimeWindow :=
      ⟨"t", none, ⟨-1, 1, by decide, by decide, by decide, by decide⟩,
        ⟨60, 1, by decide, by decide, by decide, by decide⟩, by decide⟩
    (w.upper.second = 8210266876799 → w.upper.IsWhole) ∧ w.Within v ∧
      ∃ lower upper lower' upper', w.bounds? true = some (lower, upper) ∧
        v.bounds? true = some (lower', upper') ∧ w.IsHull lower upper ∧
        (lower.second, lower.nano) = (-1, 1000000000) ∧ (upper.second, upper.nano) = (60, 0) ∧
        lower'.moment ≤ lower.moment ∧ upper.moment ≤ upper'.moment := by
  intro w v
  have hinside : w.upper.second = 8210266876799 → w.upper.IsWhole := by decide
  have hwithin : w.Within v := by
    constructor <;> decide
  obtain ⟨lower, upper, hbounds, hhull, -, hwider⟩ := bounds?_isHull w hinside
  have hv : v.bounds? true = some (⟨-1, 0, by decide, by decide, by decide, by decide⟩,
      ⟨61, 0, by decide, by decide, by decide, by decide⟩) := by decide
  obtain ⟨hlower, hupper⟩ := hwider v _ _ hv hwithin
  have hw : w.bounds? true = some (⟨-1, 1000000000, by decide, by decide, by decide, by decide⟩,
      ⟨60, 0, by decide, by decide, by decide, by decide⟩) := by decide
  obtain ⟨rfl, rfl⟩ := Prod.mk.inj (Option.some.inj (hw.symm.trans hbounds))
  exact ⟨hinside, hwithin, _, _, _, _, hbounds, hv, hhull, rfl, rfl, hlower, hupper.2 (by decide)⟩

/-- A window that ends within a second goes beyond one that ends with the leap second after it. -/
theorem hull_not_within :
    let w : TimeWindow := ⟨"t", none, ⟨0, 0, by decide, by decide, by decide, by decide⟩,
      ⟨59, 500000000, by decide, by decide, by decide, by decide⟩, by decide⟩
    let v : TimeWindow := ⟨"t", none, ⟨0, 0, by decide, by decide, by decide, by decide⟩,
      ⟨59, 1000000000, by decide, by decide, by decide, by decide⟩, by decide⟩
    w.Within v ∧ ∃ lower upper lower' upper', w.bounds? true = some (lower, upper) ∧
      v.bounds? true = some (lower', upper') ∧
      ¬(lower'.moment ≤ lower.moment ∧ upper.moment ≤ upper'.moment) := by
  intro w v
  refine ⟨by constructor <;> decide, ⟨0, 0, by decide, by decide, by decide, by decide⟩,
    ⟨60, 0, by decide, by decide, by decide, by decide⟩,
    ⟨0, 0, by decide, by decide, by decide, by decide⟩,
    ⟨59, 1000000000, by decide, by decide, by decide, by decide⟩, by decide, by decide, ?_⟩
  decide

end TimeWindow
end MapQuery
