import MapQuery.Dialect.CqlText
import MapQuery.Dialect.WhereClause
import MapQuery.Proofs.Predicate.Clauses

/-!
# Leaves of the text languages

Whatever a text language writes for a comparison, a range check, a selection of ids or an area is
one leaf: its parentheses match, and it does not begin with a group or with NOT alone.
-/

set_option autoImplicit false

namespace MapQuery

/-- Whether a plain text keeps what it stands in front of from being a run or a negation. -/
def Text.Marks (t : Text) : Prop :=
  t.Plain ∧ ∃ c ∈ t, isBlank c = false ∧ c.toLower ∉ lowerAscii "NOT"

instance (t : Text) : Decidable t.Marks :=
  decidable_of_iff
    (t.Plain ∧ t.any (fun c => !isBlank c && decide (c.toLower ∉ Text.lowerAscii "NOT")) = true)
    (by simp [Text.Marks])

theorem isLeaf_of_marks {mark rest : Text} (hmark : mark.Marks) (hrest : Segment rest) :
    IsLeaf (Text.paren (mark ++ rest)) :=
  ⟨mark, rest, rfl, hmark.1, hrest, hmark.2⟩

theorem Text.Plain.marks_append {column mark : Text} (hcolumn : column.Plain) (hmark : mark.Marks) :
    (column ++ mark).Marks := by
  obtain ⟨hplain, c, hc, hletter⟩ := hmark
  exact ⟨Text.plain_append.2 ⟨hcolumn, hplain⟩, c, List.mem_append_right _ hc, hletter⟩

/-- Whether a writer writes predicate texts whose leaves are recognized. -/
structure Writer.IsTextual (w : Writer) : Prop where
  join : w.join = PredicateText.join
  negate : w.negate = PredicateText.negate
  nullCheck : ∀ negated {column : Text}, column.Plain → IsLeaf (w.nullCheck negated column)
  relate : ∀ r {column : Text} l, column.Plain → IsLeaf (w.relate r column l)
  like : ∀ negated {column : Text} l style, column.Plain → IsLeaf (w.like negated column l style)
  between : ∀ {column : Text} lower upper, column.Plain → IsLeaf (w.between column lower upper)
  ids : ∀ list, IsLeaf (w.ids list)

theorem Literal.plain_of_classify {l : Literal} {t : Text} (h : l.classify = .number t) :
    t.Plain := by
  cases l with
  | bool b => simp [Literal.classify] at h
  | number x =>
    obtain rfl : Literal.numberText x = t := by simpa [Literal.classify] using h
    exact Literal.plain_numberText x
  | text s =>
    simp only [Literal.classify, Literal.classOfText] at h
    split at h
    · next hnumeral =>
      obtain rfl : s = t := by simpa using h
      exact Decimal.plain_of_isFiniteNumeral hnumeral
    · split at h
      · simp at h
      · split at h <;> simp at h

namespace PredicateText

variable {truth : Bool → Text} (htruth : ∀ b, (truth b).Plain)
include htruth

theorem segment_literal (l : Literal) : Segment (literal truth l) := by
  unfold literal
  split
  · next t ht => exact .of_plain (Literal.plain_of_classify ht)
  · next b _ => exact .of_plain (htruth b)
  · next t _ => exact .quote t

theorem isLeaf_relate (r : Relation) {column : Text} (l : Literal) (hcolumn : column.Plain) :
    IsLeaf (relate truth r column l) := by
  have hmark : Text.Marks (" " ++ r.symbol ++ " ") := by cases r <;> decide
  have := isLeaf_of_marks (hcolumn.marks_append hmark) (segment_literal htruth l)
  simpa [relate] using this

theorem isLeaf_between {column : Text} (lower upper : Literal) (hcolumn : column.Plain) :
    IsLeaf (between truth column lower upper) := by
  have hmark : Text.Marks " BETWEEN " := by decide
  have hand : Segment " AND " := .of_plain (by decide)
  have hbounds := ((segment_literal htruth lower).append hand).append (segment_literal htruth upper)
  have := isLeaf_of_marks (hcolumn.marks_append hmark) hbounds
  simpa [between] using this

omit htruth in
theorem segment_valueList {values : List Text} (h : ∀ t ∈ values, Segment t) :
    Segment (valueList values) :=
  (Segment.joined (.of_plain (by decide)) h).paren

end PredicateText

theorem CqlText.plain_truth (b : Bool) : (truth b).Plain := by
  cases b <;> decide

theorem WhereClause.plain_truth (b : Bool) : (truth b).Plain := by
  cases b <;> decide

namespace CqlText

theorem isLeaf_nullCheck (negated : Bool) {column : Text} (hcolumn : column.Plain) :
    IsLeaf (nullCheck negated column) := by
  have hmark : Text.Marks (if negated then " IS NOT NULL" else " IS NULL" : String) := by
    cases negated <;> decide
  have hleaf := isLeaf_of_marks (hcolumn.marks_append hmark) .nil
  rw [List.append_nil] at hleaf
  exact hleaf

theorem isLeaf_like (negated : Bool) {column : Text} (l : Literal) (style : PatternStyle)
    (hcolumn : column.Plain) : IsLeaf (like negated column l style) := by
  have hmark : Text.Marks (if negated then " NOT ILIKE " else " ILIKE ") := by
    cases negated <;> decide
  exact isLeaf_of_marks (hcolumn.marks_append hmark) (.quote _)

theorem isLeaf_ids (list : List Text) : IsLeaf (ids list) := by
  have hmark : Text.Marks "IN " := by decide
  refine isLeaf_of_marks hmark (PredicateText.segment_valueList ?_)
  intro t ht
  obtain ⟨id, -, rfl⟩ := List.mem_map.1 ht
  exact .quote id

theorem isTextual_writer : writer.IsTextual where
  join := rfl
  negate := rfl
  nullCheck := isLeaf_nullCheck
  relate := PredicateText.isLeaf_relate plain_truth
  like := isLeaf_like
  between := PredicateText.isLeaf_between plain_truth
  ids := isLeaf_ids

end CqlText

namespace WhereClause

theorem isLeaf_nullCheck (negated : Bool) {column : Text} (hcolumn : column.Plain) :
    IsLeaf (nullCheck negated column) := by
  have hmark : Text.Marks (if negated then " is not null" else " is null" : String) := by
    cases negated <;> decide
  have hleaf := isLeaf_of_marks (hcolumn.marks_append hmark) .nil
  rw [List.append_nil] at hleaf
  exact hleaf

theorem isLeaf_like (negated : Bool) {column : Text} (l : Literal) (style : PatternStyle)
    (hcolumn : column.Plain) : IsLeaf (like negated column l style) := by
  have hmark : Text.Marks "UPPER" := by decide
  have hkeyword : Segment (if negated then " not like " else " like ") :=
    .of_plain (by cases negated <;> decide)
  have hrest := ((Segment.of_plain hcolumn).paren.append hkeyword).append
    (.quote (sentPattern (style.percentText l.rawText)))
  have hleaf := isLeaf_of_marks hmark hrest
  rw [← List.append_assoc, ← List.append_assoc] at hleaf
  exact hleaf

theorem isLeaf_ids {idColumn : Text} (hid : idColumn.Plain) (list : List Text) :
    IsLeaf (ids idColumn list) := by
  have hmark : Text.Marks " IN " := by decide
  refine isLeaf_of_marks (hid.marks_append hmark) (PredicateText.segment_valueList ?_)
  intro t ht
  obtain ⟨id, -, rfl⟩ := List.mem_map.1 ht
  exact PredicateText.segment_literal plain_truth (.text id)

theorem isTextual_writer {idColumn : Text} (hid : idColumn.Plain) :
    (writer idColumn).IsTextual where
  join := rfl
  negate := rfl
  nullCheck := isLeaf_nullCheck
  relate := PredicateText.isLeaf_relate plain_truth
  like := isLeaf_like
  between := PredicateText.isLeaf_between plain_truth
  ids := isLeaf_ids hid

end WhereClause

namespace CqlText

/-- What stands in the parentheses of a spatial predicate. -/
def intersectsArguments (column : Text) (s : Shape Float) : Text :=
  column ++ ", " ++ WellKnown.shape Decimal.Layout.plain.write s

theorem intersects_eq (column : Text) (s : Shape Float) :
    intersects column s = "INTERSECTS" ++ Text.paren (intersectsArguments column s) := by
  have hopen : ("INTERSECTS(" : Text) = "INTERSECTS" ++ ['('] := by decide
  have hclose : (")" : Text) = [')'] := by decide
  unfold intersects intersectsArguments Text.paren
  rw [hopen, hclose]
  simp only [List.append_assoc, List.cons_append, List.nil_append]

variable {column : Text} (hcolumn : column.Plain) (s : Shape Float)
include hcolumn

theorem segment_intersectsArguments : Segment (intersectsArguments column s) :=
  ((Segment.of_plain hcolumn).append (.of_plain (by decide))).append (WellKnown.segment_shape s)

theorem isLeaf_intersects : IsLeaf (Text.paren (intersects column s)) := by
  have hmark : Text.Marks "INTERSECTS" := by decide
  rw [intersects_eq]
  exact isLeaf_of_marks hmark (segment_intersectsArguments hcolumn s).paren

theorem isLeaf_negated_intersects : IsLeaf (PredicateText.negate (intersects column s)) := by
  have hmark : Text.Marks (("NOT " : Text) ++ ("INTERSECTS" : Text)) := by decide
  have hleaf := isLeaf_of_marks hmark (segment_intersectsArguments hcolumn s).paren
  rw [List.append_assoc, ← intersects_eq] at hleaf
  exact hleaf

end CqlText
end MapQuery
