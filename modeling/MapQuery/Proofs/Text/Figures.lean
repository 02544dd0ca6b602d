import MapQuery.Filter.Literal
import MapQuery.Time.Timestamp

/-!
# Figures

Numbers and timestamps are written with digits and a few signs, none of which has a meaning in any
language.
-/

set_option autoImplicit false

namespace MapQuery

/-- Whether a character is a digit or one of the signs that numbers and timestamps are written
with. -/
def isFigure (c : Char) : Bool := c.isDigit || "+-.,:TZ ".toList.contains c

/-- Whether a text holds nothing but figures. -/
def Text.IsFigures (t : Text) : Prop := ∀ c ∈ t, isFigure c = true

theorem isFigure_of_isDigit {c : Char} (h : c.isDigit = true) : isFigure c = true := by
  rw [isFigure, h, Bool.true_or]

theorem ne_of_isFigure {c d : Char} (hc : isFigure c = true) (hd : isFigure d = false) : c ≠ d := by
  rintro rfl
  rw [hc] at hd
  cases hd

namespace Text

instance (t : Text) : Decidable t.IsFigures :=
  decidable_of_iff (t.all isFigure = true) List.all_eq_true

@[simp] theorem isFigures_nil : IsFigures [] := by
  intro c hc
  cases hc

@[simp] theorem isFigures_cons {c : Char} {t : Text} :
    IsFigures (c :: t) ↔ isFigure c = true ∧ t.IsFigures := List.forall_mem_cons

@[simp] theorem isFigures_append {s t : Text} :
    IsFigures (s ++ t) ↔ s.IsFigures ∧ t.IsFigures := List.forall_mem_append

theorem isDigit_of_mem_natural {n : Nat} {c : Char} (h : c ∈ natural n) : c.isDigit = true :=
  Nat.isDigit_of_mem_toDigits (by decide) (by decide) h

theorem isDigit_of_mem_padded {width n : Nat} {c : Char} (h : c ∈ padded width n) :
    c.isDigit = true := by
  rcases List.mem_append.1 h with hzero | hdigit
  · rw [List.eq_of_mem_replicate hzero]
    decide
  · exact isDigit_of_mem_natural hdigit

theorem isFigures_padded (width n : Nat) : (padded width n).IsFigures := fun _ hc =>
  isFigure_of_isDigit (isDigit_of_mem_padded hc)

theorem natural_injective : Function.Injective natural := by
  intro m n h
  have hread := congrArg (Nat.ofDigitChars 10 · 0) h
  simpa only [natural, Nat.ofDigitChars_ten_toDigits] using hread

theorem natural_ne_minus_cons (n : Nat) (t : Text) : natural n ≠ '-' :: t := by
  intro h
  have hdigit := isDigit_of_mem_natural (n := n) (c := '-') (by rw [h]; exact List.mem_cons_self)
  exact absurd hdigit (by decide)

theorem integer_injective : Function.Injective integer := by
  intro a b h
  simp only [integer] at h
  by_cases ha : a < 0 <;> by_cases hb : b < 0
  · rw [if_pos ha, if_pos hb] at h
    have := natural_injective (List.cons.inj h).2
    omega
  · rw [if_pos ha, if_neg hb] at h
    exact absurd h.symm (natural_ne_minus_cons _ _)
  · rw [if_neg ha, if_pos hb] at h
    exact absurd h (natural_ne_minus_cons _ _)
  · rw [if_neg ha, if_neg hb] at h
    have := natural_injective h
    omega

theorem isFigures_joined {separator : Text} (hseparator : separator.IsFigures) {ts : List Text}
    (h : ∀ t ∈ ts, t.IsFigures) : (joined separator ts).IsFigures :=
  joined_induction isFigures_nil (fun _ _ hs ht => isFigures_append.2 ⟨hs, ht⟩) hseparator h

end Text

namespace Decimal

/-- Whether a class of characters has all those that a layout writes numbers with. -/
structure Layout.UsesOnly (l : Layout) (P : Char → Prop) : Prop where
  digit : ∀ c, c.isDigit = true → P c
  minus : P '-'
  point : P '.'
  wholeEnd : ∀ c ∈ l.wholeEnd, P c
  exponent : ∀ point, l.positional point = false → P 'e' ∧ P '+'

namespace Layout.UsesOnly

variable {l : Layout} {P : Char → Prop} (h : l.UsesOnly P)
include h

theorem natural (n : Nat) : ∀ c ∈ Text.natural n, P c :=
  fun c hc => h.digit c (Text.isDigit_of_mem_natural hc)

theorem zeros (n : Nat) : ∀ c ∈ List.replicate n '0', P c := by
  intro c hc
  rw [List.eq_of_mem_replicate hc]
  exact h.digit '0' (by decide)

theorem withPoint {digits : Text} (hdigits : ∀ c ∈ digits, P c) (point : Int) :
    ∀ c ∈ withPoint digits point l.wholeEnd, P c := by
  have hzero : ∀ c ∈ ("0." : Text), P c := by
    intro c hc
    obtain rfl | rfl : c = '0' ∨ c = '.' := by simpa using hc
    · exact h.digit '0' (by decide)
    · exact h.point
  have hpoint : ∀ c ∈ ("." : Text), P c := by
    intro c hc
    obtain rfl : c = '.' := by simpa using hc
    exact h.point
  unfold Decimal.withPoint
  split
  · exact List.forall_mem_append.2 ⟨List.forall_mem_append.2 ⟨hzero, h.zeros _⟩, hdigits⟩
  · split
    · exact List.forall_mem_append.2
        ⟨List.forall_mem_append.2 ⟨hdigits, h.zeros _⟩, h.wholeEnd⟩
    · exact List.forall_mem_append.2
        ⟨List.forall_mem_append.2 ⟨fun c hc => hdigits c (List.mem_of_mem_take hc), hpoint⟩,
          fun c hc => hdigits c (List.mem_of_mem_drop hc)⟩

theorem withExponent {digits : Text} (hdigits : ∀ c ∈ digits, P c) (hmark : P 'e' ∧ P '+')
    (point : Int) : ∀ c ∈ withExponent digits point, P c := by
  have hsign : ∀ c ∈ (if point - 1 < 0 then "-" else "+" : Text), P c := by
    intro c hc
    split at hc
    · obtain rfl : c = '-' := by simpa using hc
      exact h.minus
    · obtain rfl : c = '+' := by simpa using hc
      exact hmark.2
  have hfraction : ∀ c ∈ (if digits.length ≤ 1 then [] else "." ++ digits.drop 1 : Text), P c := by
    intro c hc
    split at hc
    · cases hc
    · rcases List.mem_append.1 hc with hc | hc
      · obtain rfl : c = '.' := by simpa using hc
        exact h.point
      · exact hdigits c (List.mem_of_mem_drop hc)
  have hletter : ∀ c ∈ ("e" : Text), P c := by
    intro c hc
    obtain rfl : c = 'e' := by simpa using hc
    exact hmark.1
  have hfirst : ∀ c ∈ digits.take 1, P c := fun c hc => hdigits c (List.mem_of_mem_take hc)
  unfold Decimal.withExponent
  exact List.forall_mem_append.2 ⟨List.forall_mem_append.2 ⟨List.forall_mem_append.2
    ⟨List.forall_mem_append.2 ⟨hfirst, hfraction⟩, hletter⟩, hsign⟩, h.natural _⟩

theorem write (x : Float) : ∀ c ∈ l.write x, P c := by
  have hsign : ∀ c ∈ (if x.toBits.toNat / Nat.pow 2 63 = 1 then "-" else [] : Text), P c := by
    intro c hc
    split at hc
    · obtain rfl : c = '-' := by simpa using hc
      exact h.minus
    · cases hc
  by_cases hx : (x == 0) = true
  · have hzero : ∀ c ∈ ("0" : Text), P c := h.zeros 1
    simp only [Layout.write, hx, if_true]
    exact List.forall_mem_append.2 ⟨List.forall_mem_append.2 ⟨hsign, hzero⟩, h.wholeEnd⟩
  · simp only [Layout.write, hx, Bool.false_eq_true, if_false]
    refine List.forall_mem_append.2 ⟨hsign, ?_⟩
    split
    · exact h.withPoint (h.natural _) _
    · next hexponent =>
      exact h.withExponent (h.natural _) (h.exponent _ (Bool.eq_false_iff.2 hexponent)) _

end Layout.UsesOnly

theorem isFigures_write (x : Float) : (Layout.plain.write x).IsFigures := by
  have huses : Layout.plain.UsesOnly fun c => isFigure c = true :=
    { digit := fun _ => isFigure_of_isDigit
      minus := by decide
      point := by decide
      wholeEnd := by
        intro c hc
        cases hc
      exponent := by
        intro point hpoint
        cases hpoint }
  exact huses.write x

end Decimal

theorem Literal.isFigures_numberText (x : Float) : (numberText x).IsFigures := by
  unfold numberText
  split
  · decide
  · exact Decimal.isFigures_write x

theorem Timestamp.isFigures_write (millis : Bool) (a : Instant) : (write millis a).IsFigures := by
  have hyear : ∀ year, (yearText year).IsFigures := by
    intro year
    have hminus : isFigure '-' = true := by decide
    have hplus : isFigure '+' = true := by decide
    unfold yearText
    split
    · exact Text.isFigures_padded _ _
    · refine Text.isFigures_cons.2 ⟨?_, Text.isFigures_padded _ _⟩
      split
      · exact hminus
      · exact hplus
  have hmarks : Text.IsFigures "-" ∧ Text.IsFigures "T" ∧ Text.IsFigures ":" ∧
      Text.IsFigures "." ∧ Text.IsFigures "Z" := by
    decide
  obtain ⟨hdash, htime, hcolon, hpoint, hzone⟩ := hmarks
  unfold write
  simp only [Text.isFigures_append, hyear, hdash, htime, hcolon, hzone, Text.isFigures_padded,
    true_and, and_true]
  split
  · exact Text.isFigures_append.2 ⟨hpoint, Text.isFigures_padded _ _⟩
  · exact Text.isFigures_nil

end MapQuery
