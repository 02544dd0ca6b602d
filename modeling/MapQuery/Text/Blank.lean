import MapQuery.Text.Basic

/-!
# Blanks

The 25 characters of the Unicode property White_Space, and text without blanks at its ends.
-/

set_option autoImplicit false

namespace MapQuery

/-- Ranges of the blank code points, ends included. -/
def blankRanges : List (Nat × Nat) := [
    (0x9, 0xD), (0x20, 0x20), (0x85, 0x85), (0xA0, 0xA0), (0x1680, 0x1680), (0x2000, 0x200A),
    (0x2028, 0x2029), (0x202F, 0x202F), (0x205F, 0x205F), (0x3000, 0x3000)]

def isBlank (c : Char) : Bool := blankRanges.any fun r => r.1 ≤ c.toNat && c.toNat ≤ r.2

theorem isBlank_of_isDigit {c : Char} (h : c.isDigit = true) : isBlank c = false := by
  simp only [Char.isDigit, Bool.and_eq_true, decide_eq_true_eq] at h
  obtain ⟨hlow, hhigh⟩ := h
  have hcode : 48 ≤ c.toNat ∧ c.toNat ≤ 57 := ⟨hlow, hhigh⟩
  simp [isBlank, blankRanges]
  omega

namespace Text

/-- The text without the blanks it begins with. -/
def trimStart (t : Text) : Text := t.dropWhile isBlank

/-- The text without the blanks it ends with. -/
def trimEnd (t : Text) : Text := (t.reverse.dropWhile isBlank).reverse

/-- The text without the blanks at its two ends. -/
def trim (t : Text) : Text := t.trimStart.trimEnd

def blank (t : Text) : Bool := t.all isBlank

@[simp] theorem blank_nil : blank [] = true := rfl

theorem blank_append {b : Text} (h : blank b = true) (t : Text) : blank (t ++ b) = blank t := by
  simp only [blank, List.all_append] at *
  simp [h]

theorem isBlank_of_blank {t : Text} (h : blank t = true) : ∀ c ∈ t, isBlank c = true :=
  List.all_eq_true.1 h

theorem blank_eq_false_of_mem {c : Char} {t : Text} (hc : isBlank c = false) (h : c ∈ t) :
    blank t = false := by
  cases hblank : blank t with
  | false => rfl
  | true =>
    rw [isBlank_of_blank hblank c h] at hc
    cases hc

theorem ne_nil_of_blank_eq_false {t : Text} (h : blank t = false) : t ≠ [] := by
  rintro rfl
  cases h

theorem blank_paren (t : Text) : blank (paren t) = false :=
  blank_eq_false_of_mem (c := '(') (by decide) List.mem_cons_self

theorem trimStart_cons {c : Char} (h : isBlank c = false) (t : Text) :
    trimStart (c :: t) = c :: t := by
  rw [trimStart, List.dropWhile_cons_of_neg (by simp [h])]

theorem trimStart_append_of_blank {a : Text} (h : blank a = true) (t : Text) :
    trimStart (a ++ t) = trimStart t :=
  List.dropWhile_append_of_pos (isBlank_of_blank h)

theorem trimEnd_append_of_blank {b : Text} (h : blank b = true) (t : Text) :
    trimEnd (t ++ b) = trimEnd t := by
  have hb : ∀ c ∈ b.reverse, isBlank c = true := by
    intro c hc
    exact isBlank_of_blank h c (List.mem_reverse.1 hc)
  simp [trimEnd, List.dropWhile_append_of_pos hb]

theorem trim_append_of_blank_left {a : Text} (h : blank a = true) (t : Text) :
    trim (a ++ t) = trim t := by
  rw [trim, trimStart_append_of_blank h, trim]

theorem trim_append_of_blank_right {b : Text} (h : blank b = true) (t : Text) :
    trim (t ++ b) = trim t := by
  simp only [trim, trimStart]
  rw [List.dropWhile_append]
  split
  · next hempty =>
    have hb : b.dropWhile isBlank = [] := by
      have := trimStart_append_of_blank h []
      simpa [trimStart] using this
    rw [hb, List.isEmpty_iff.1 hempty]
  · exact trimEnd_append_of_blank h _

/-- What trimming takes away. -/
theorem exists_trim (t : Text) :
    ∃ a b, blank a = true ∧ blank b = true ∧ t = a ++ trim t ++ b := by
  refine ⟨t.takeWhile isBlank, (t.trimStart.reverse.takeWhile isBlank).reverse, ?_, ?_, ?_⟩
  · exact List.all_takeWhile
  · simp [blank]
  · have hend : t.trimStart = trim t ++ (t.trimStart.reverse.takeWhile isBlank).reverse := by
      rw [trim, trimEnd, ← List.reverse_append, List.takeWhile_append_dropWhile,
        List.reverse_reverse]
    rw [List.append_assoc, ← hend]
    exact List.takeWhile_append_dropWhile.symm

@[simp] theorem trim_trim (t : Text) : trim (trim t) = trim t := by
  obtain ⟨a, b, ha, hb, ht⟩ := exists_trim t
  conv => rhs; rw [ht]
  rw [List.append_assoc, trim_append_of_blank_left ha, trim_append_of_blank_right hb]

theorem mem_trim {c : Char} {t : Text} (hc : isBlank c = false) (h : c ∈ t) : c ∈ trim t := by
  obtain ⟨a, b, ha, hb, ht⟩ := exists_trim t
  rw [ht] at h
  rcases List.mem_append.1 h with h | h
  · rcases List.mem_append.1 h with h | h
    · simp [isBlank_of_blank ha c h] at hc
    · exact h
  · simp [isBlank_of_blank hb c h] at hc

theorem blank_trim (t : Text) : blank (trim t) = blank t := by
  obtain ⟨a, b, ha, hb, ht⟩ := exists_trim t
  conv => rhs; rw [ht]
  rw [blank_append hb]
  simp only [blank, List.all_append] at ha ⊢
  simp [ha]

theorem trim_eq_nil_iff (t : Text) : trim t = [] ↔ blank t = true := by
  constructor
  · intro h
    rw [← blank_trim, h]
    rfl
  · intro h
    have := trim_append_of_blank_left h []
    simpa [trim, trimStart, trimEnd] using this

/-- Parentheses stand against trimming. -/
@[simp] theorem trim_paren (t : Text) : trim (paren t) = paren t := by
  have ho : isBlank '(' = false := by decide
  have hc : isBlank ')' = false := by decide
  simp [trim, trimStart, trimEnd, paren, ho, hc]

end Text
end MapQuery
