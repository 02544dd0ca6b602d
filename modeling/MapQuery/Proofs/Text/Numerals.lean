import MapQuery.Proofs.Text.Brackets
import MapQuery.Proofs.Text.Figures

/-!
# Numerals

What every layout writes numbers with: digits and four signs, none of which separates, encloses or
is a blank.
-/

set_option autoImplicit false

namespace MapQuery

/-- Whether a character is a digit or one of the signs in numbers. -/
def isNumeralChar (c : Char) : Bool := c.isDigit || "+-.e".toList.contains c

theorem ne_of_isNumeralChar {c d : Char} (hc : isNumeralChar c = true)
    (hd : isNumeralChar d = false) : c ≠ d := by
  rintro rfl
  rw [hc] at hd
  cases hd

theorem isBlank_of_isNumeralChar {c : Char} (h : isNumeralChar c = true) : isBlank c = false := by
  rcases Bool.or_eq_true_iff.1 h with hdigit | hsign
  · exact isBlank_of_isDigit hdigit
  · have hsigns : ("+-.e".toList.all fun c => !isBlank c) = true := rfl
    simpa using List.all_eq_true.1 hsigns c (List.contains_iff_mem.1 hsign)

/-- Whether a text has the characters of a number, and any at all. -/
structure Text.IsNumeral (t : Text) : Prop where
  ne_nil : t ≠ []
  chars : ∀ c ∈ t, isNumeralChar c = true

namespace Text.IsNumeral

variable {t : Text} (h : t.IsNumeral)
include h

theorem not_mem {c : Char} (hc : isNumeralChar c = false) : c ∉ t :=
  fun hmem => ne_of_isNumeralChar (h.chars c hmem) hc rfl

theorem exists_head : ∃ c ∈ t.head?, isBlank c = false := by
  obtain ⟨c, rest, rfl⟩ := List.exists_cons_of_ne_nil h.ne_nil
  exact ⟨c, rfl, isBlank_of_isNumeralChar (h.chars c List.mem_cons_self)⟩

theorem uncut {opening closing : Char} (ho : isNumeralChar opening = false)
    (hc : isNumeralChar closing = false) (depth : Nat) :
    Brackets.Uncut opening closing depth t := by
  refine .of_chars fun c hmem => ?_
  have hchar := h.chars c hmem
  exact ⟨ne_of_isNumeralChar hchar ho, ne_of_isNumeralChar hchar hc,
    .inl (ne_of_isNumeralChar hchar (by decide))⟩

theorem isItem {opening closing : Char} (ho : isNumeralChar opening = false)
    (hc : isNumeralChar closing = false) : Brackets.IsItem opening closing t where
  head := h.exists_head
  uncut := h.uncut ho hc

end Text.IsNumeral

namespace Decimal

theorem withPoint_ne_nil {digits : Text} (hdigits : digits ≠ []) (point : Int) (wholeEnd : Text) :
    withPoint digits point wholeEnd ≠ [] := by
  unfold withPoint
  split
  · exact List.cons_ne_nil _ _
  · split
    · simp [hdigits]
    · simp

theorem Layout.write_ne_nil (l : Layout) (x : Float) : l.write x ≠ [] := by
  by_cases hx : (x == 0) = true
  · simp only [Layout.write, hx, if_true]
    simp
  · simp only [Layout.write, hx, Bool.false_eq_true, if_false]
    refine List.append_ne_nil_of_right_ne_nil _ ?_
    split
    · exact withPoint_ne_nil Nat.toDigits_ne_nil _ _
    · simp [withExponent]

theorem Layout.isNumeral_write {l : Layout} (h : l.wholeEnd.all isNumeralChar = true)
    (x : Float) : (l.write x).IsNumeral where
  ne_nil := l.write_ne_nil x
  chars := by
    have huses : l.UsesOnly fun c => isNumeralChar c = true :=
      { digit := fun c hc => Bool.or_eq_true_iff.2 (.inl hc)
        minus := by decide
        point := by decide
        wholeEnd := List.all_eq_true.1 h
        exponent := fun _ _ => ⟨by decide, by decide⟩ }
    exact huses.write x

theorem isNumeral_plain (x : Float) : (Layout.plain.write x).IsNumeral :=
  Layout.isNumeral_write rfl x

theorem isNumeral_json (x : Float) : (Layout.json.write x).IsNumeral :=
  Layout.isNumeral_write rfl x

end Decimal
end MapQuery
