import MapQuery.Area.WellKnown
import MapQuery.Proofs.Predicate.Segments
import MapQuery.Proofs.Text.Figures

/-!
# Plain texts

Numbers and timestamps hold neither parentheses nor quotes, and the text of a shape holds no quotes.
-/

set_option autoImplicit false

namespace MapQuery

namespace Text

instance (t : Text) : Decidable t.Plain :=
  decidable_of_iff (t.all isPlain = true) List.all_eq_true

@[simp] theorem plain_nil : Plain [] := by
  intro c hc
  cases hc

@[simp] theorem plain_cons {c : Char} {t : Text} : Plain (c :: t) ↔ isPlain c = true ∧ t.Plain :=
  List.forall_mem_cons

@[simp] theorem plain_append {s t : Text} : Plain (s ++ t) ↔ s.Plain ∧ t.Plain :=
  List.forall_mem_append

theorem isPlain_of_isFigure {c : Char} (h : isFigure c = true) : isPlain c = true := by
  have hne : ∀ d : Char, isFigure d = false → c ≠ d := fun d hd => ne_of_isFigure h hd
  simp [isPlain, isMark, hne '(' (by decide), hne ')' (by decide), hne '\'' (by decide),
    hne Quotation.shieldedOpen (by decide), hne Quotation.shieldedClose (by decide)]

theorem IsFigures.plain {t : Text} (h : t.IsFigures) : t.Plain :=
  fun c hc => isPlain_of_isFigure (h c hc)

theorem plain_of_digits {t : Text} (h : t.all Char.isDigit = true) : t.Plain :=
  fun c hc => isPlain_of_isFigure (isFigure_of_isDigit (List.all_eq_true.1 h c hc))

end Text

namespace Decimal

open Text (Plain)

theorem plain_of_plain_splitSign {t : Text} (h : Plain (splitSign t).2) : t.Plain := by
  unfold splitSign at h
  split at h
  · exact Text.plain_cons.2 ⟨by decide, h⟩
  · exact Text.plain_cons.2 ⟨by decide, h⟩
  · exact h

theorem plain_of_exponentOf? {t : Text} {e : Int} (h : exponentOf? t = some e) : t.Plain := by
  unfold exponentOf? at h
  split at h
  · exact Text.plain_nil
  · next c t =>
    split at h
    · next hc =>
      have hmark : isPlain c = true := by
        rcases hc with rfl | rfl <;> decide
      refine Text.plain_cons.2 ⟨hmark, plain_of_plain_splitSign (Text.plain_of_digits ?_)⟩
      simp only at h
      split at h
      · simp at h
      · next hdigits =>
        rw [not_or, Decidable.not_not] at hdigits
        exact hdigits.2
    · simp at h

theorem plain_of_digits_dropWhile {t : Text} (h : Plain (t.dropWhile Char.isDigit)) : t.Plain := by
  rw [← List.takeWhile_append_dropWhile (p := Char.isDigit) (l := t)]
  exact Text.plain_append.2 ⟨Text.plain_of_digits List.all_takeWhile, h⟩

theorem plain_of_isFiniteNumeral {t : Text} (h : isFiniteNumeral t = true) : t.Plain := by
  obtain ⟨n, hn, -⟩ := (Option.any_eq_true _ _).1 h
  refine plain_of_plain_splitSign (plain_of_digits_dropWhile ?_)
  simp only [Numeral.ofText?] at hn
  generalize (splitSign t).2.dropWhile Char.isDigit = rest at hn ⊢
  split at hn
  · next r =>
    split at hn
    · simp at hn
    · obtain ⟨e, he, -⟩ := Option.map_eq_some_iff.1 hn
      exact Text.plain_cons.2 ⟨by decide, plain_of_digits_dropWhile (plain_of_exponentOf? he)⟩
  · split at hn
    · simp at hn
    · obtain ⟨e, he, -⟩ := Option.map_eq_some_iff.1 hn
      exact plain_of_exponentOf? he

end Decimal

theorem Literal.plain_numberText (x : Float) : (numberText x).Plain :=
  (isFigures_numberText x).plain

theorem Timestamp.plain_write (millis : Bool) (a : Instant) : (write millis a).Plain :=
  (isFigures_write millis a).plain

namespace WellKnown

theorem segment_separator : Segment ", " := .of_plain (by decide)

theorem segment_position (p : Position Float) :
    Segment (position Decimal.Layout.plain.write p) := by
  have hnumber : ∀ x, (Decimal.Layout.plain.write x).Plain := fun x =>
    (Decimal.isFigures_write x).plain
  refine .of_plain (Text.plain_append.2 ⟨Text.plain_append.2 ⟨hnumber p.1, ?_⟩, hnumber p.2⟩)
  decide

theorem segment_ring (r : Ring Float) : Segment (ring Decimal.Layout.plain.write r) := by
  refine (Segment.joined segment_separator ?_).paren
  intro t ht
  obtain ⟨p, -, rfl⟩ := List.mem_map.1 ht
  exact segment_position p

theorem segment_polygon (p : Polygon Float) : Segment (polygon Decimal.Layout.plain.write p) := by
  refine (Segment.joined segment_separator ?_).paren
  intro t ht
  obtain ⟨r, -, rfl⟩ := List.mem_map.1 ht
  exact segment_ring r

/-- The parentheses of a shape match. -/
theorem segment_shape (s : Shape Float) : Segment (shape Decimal.Layout.plain.write s) := by
  cases s with
  | polygon rings => exact (Segment.of_plain (by decide)).append (segment_polygon rings)
  | multiPolygon polygons =>
    refine (Segment.of_plain (by decide)).append (Segment.joined segment_separator ?_).paren
    intro t ht
    obtain ⟨p, -, rfl⟩ := List.mem_map.1 ht
    exact segment_polygon p

end WellKnown
end MapQuery
