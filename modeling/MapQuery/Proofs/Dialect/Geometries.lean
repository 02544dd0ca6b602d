import MapQuery.Area.Gml
import MapQuery.Dialect.Basic
import MapQuery.Proofs.Dialect.Leaves
import MapQuery.Proofs.Junction.Phrases

/-!
# Geometries in composites

What a language says of an area, and where it stays when the predicates of a query are merged: the
text of the geometry always, the whole predicate where the geometry column has no parentheses that
do not match.
-/

set_option autoImplicit false

namespace MapQuery

namespace Quotation

/-- Whether a text has nothing to restore. -/
def IsRestored (t : Text) : Prop := restore t = t

instance (t : Text) : Decidable (IsRestored t) := inferInstanceAs (Decidable (_ = _))

namespace IsRestored

theorem append {s t : Text} (hs : IsRestored s) (ht : IsRestored t) : IsRestored (s ++ t) := by
  rw [IsRestored, restore_append, hs, ht]

theorem paren {t : Text} (ht : IsRestored t) : IsRestored (Text.paren t) :=
  append (s := ['(']) (by decide) (ht.append (by decide))

theorem joined {separator : Text} (hseparator : IsRestored separator) {texts : List Text}
    (h : ∀ t ∈ texts, IsRestored t) : IsRestored (Text.joined separator texts) :=
  Text.joined_induction (P := IsRestored) rfl (fun _ _ => append) hseparator h

theorem flatMap {α : Type} {f : α → Text} {l : List α} (h : ∀ a ∈ l, IsRestored (f a)) :
    IsRestored (l.flatMap f) := by
  induction l with
  | nil => rfl
  | cons a rest ih =>
    rw [List.flatMap_cons]
    exact (h a List.mem_cons_self).append (ih fun b hb => h b (List.mem_cons_of_mem a hb))

theorem of_figures {t : Text} (h : t.IsFigures) : IsRestored t := h.plain.shown .restored

theorem number (x : Float) : IsRestored (Decimal.Layout.plain.write x) :=
  of_figures (Decimal.isFigures_write x)

theorem element {name : Text} {attributes : List (Text × Text)} {content : Text}
    (hname : IsRestored name) (hattributes : IsRestored (attributes.flatMap Markup.attributeText))
    (hcontent : IsRestored content) : IsRestored (Markup.element name attributes content) := by
  refine .append (.append (.append (.append (.append (.append (.append ?_ hname) hattributes) ?_)
    hcontent) ?_) hname) ?_
  all_goals decide

end IsRestored
end Quotation

open Quotation (IsRestored)

theorem WellKnown.isRestored_polygon (p : Polygon Float) :
    IsRestored (polygon Decimal.Layout.plain.write p) := by
  refine (IsRestored.joined (by decide) ?_).paren
  intro t ht
  obtain ⟨r, -, rfl⟩ := List.mem_map.1 ht
  refine (IsRestored.joined (by decide) ?_).paren
  intro t ht
  obtain ⟨p, -, rfl⟩ := List.mem_map.1 ht
  exact ((IsRestored.number p.1).append (by decide)).append (.number p.2)

theorem WellKnown.isRestored_shape (s : Shape Float) :
    IsRestored (shape Decimal.Layout.plain.write s) := by
  cases s with
  | polygon rings => exact IsRestored.append (by decide) (isRestored_polygon rings)
  | multiPolygon polygons =>
    refine IsRestored.append (by decide) (IsRestored.joined (by decide) ?_).paren
    intro t ht
    obtain ⟨p, -, rfl⟩ := List.mem_map.1 ht
    exact isRestored_polygon p

theorem Gml.isRestored_ring (r : Ring Float) :
    IsRestored (ring Decimal.Layout.plain.write r) := by
  refine .element (by decide) (by decide) (.element (by decide) (by decide) ?_)
  refine .joined (by decide) ?_
  intro t ht
  obtain ⟨p, -, rfl⟩ := List.mem_map.1 ht
  exact ((IsRestored.number p.1).append (by decide)).append (.number p.2)

theorem Gml.isRestored_polygon {attributes : List (Text × Text)}
    (h : IsRestored (attributes.flatMap Markup.attributeText)) (p : Polygon Float) :
    IsRestored (polygon Decimal.Layout.plain.write attributes p) := by
  refine .element (by decide) h ?_
  cases p with
  | nil => rfl
  | cons exterior holes =>
    refine (IsRestored.element (by decide) (by decide) (isRestored_ring exterior)).append ?_
    exact .flatMap fun r _ => .element (by decide) (by decide) (isRestored_ring r)

theorem Gml.isRestored_shape (s : Shape Float) :
    IsRestored (shape Decimal.Layout.plain.write s) := by
  have hreference : IsRestored (reference.flatMap Markup.attributeText) := by decide +kernel
  cases s with
  | polygon rings => exact isRestored_polygon hreference rings
  | multiPolygon polygons =>
    refine .element (by decide) hreference (.flatMap fun p _ => ?_)
    exact .element (by decide) (by decide) (isRestored_polygon (by decide) p)

theorem infix_restore {w t : Text} (h : w <:+: t) :
    Quotation.restore w <:+: Quotation.restore t := h.map Quotation.restoreChar

theorem infix_element (name : Text) (attributes : List (Text × Text)) (content : Text) :
    content <:+: Markup.element name attributes content := by
  refine ⟨"<" ++ name ++ attributes.flatMap Markup.attributeText ++ ">", "</" ++ name ++ ">", ?_⟩
  simp [Markup.element]

namespace FilterMarkup

theorem infix_merge {w t : Text} {texts : List Text} (ht : t ∈ texts)
    (hin : w <:+: t) (hw : w ≠ []) (op : Connective) : w <:+: merge op texts := by
  have hmem : t ∈ texts.filter (!·.isEmpty) := by
    refine List.mem_filter.2 ⟨ht, ?_⟩
    cases t with
    | nil => exact absurd (List.infix_nil.1 hin) hw
    | cons c t => rfl
  unfold merge Writer.joinParts
  split
  · next hnil => rw [hnil] at hmem; cases hmem
  · next part hpart =>
    rw [hpart] at hmem
    rwa [← List.mem_singleton.1 hmem]
  · refine (hin.trans (List.infix_of_mem_flatten hmem)).trans ?_
    exact infix_element _ _ _

/-- What is asked of the geometry of a feature: that it meets a shape, or that it does not. -/
def condition (column : Text) (included : Bool) (s : Shape Float) : Text :=
  if included then intersects column s else negate (intersects column s)

theorem shape_infix_condition (column : Text) (included : Bool) (s : Shape Float) :
    Gml.shape Decimal.Layout.plain.write s <:+: condition column included s := by
  have hintersects : Gml.shape Decimal.Layout.plain.write s <:+: intersects column s :=
    (List.suffix_append (property column) _).isInfix.trans (infix_element _ _ _)
  cases included with
  | true => exact hintersects
  | false => exact hintersects.trans (infix_element _ _ _)

theorem shape_ne_nil (s : Shape Float) : Gml.shape Decimal.Layout.plain.write s ≠ [] := by
  cases s <;> exact List.cons_ne_nil _ _

end FilterMarkup

namespace CqlText

/-- What is asked of the geometry of a feature: that it meets a shape, or that it does not. -/
def condition (column : Text) (included : Bool) (s : Shape Float) : Text :=
  if included then intersects column s else "NOT " ++ intersects column s

/-- The name with which a condition starts. -/
def conditionName (included : Bool) : Text := if included then "INTERSECTS" else "NOT INTERSECTS"

theorem condition_eq (column : Text) (included : Bool) (s : Shape Float) :
    condition column included s =
      conditionName included ++ Text.paren (intersectsArguments column s) := by
  cases included with
  | true => exact intersects_eq column s
  | false =>
    have hname : conditionName false = "NOT " ++ ("INTERSECTS" : Text) := by decide
    rw [hname, List.append_assoc, ← intersects_eq]
    rfl

theorem isCall_condition {column : Text} (h : column.IsNested) (included : Bool)
    (s : Shape Float) : Text.IsCall (conditionName included) (intersectsArguments column s) where
  unbracketed := by cases included <;> decide
  nested := (h.append (by decide)).append (WellKnown.segment_shape s).isNested
  head := by cases included <;> exact ⟨_, _, rfl, by decide⟩
  letter := by cases included <;> exact ⟨'I', by decide⟩

theorem shape_infix_condition (column : Text) (included : Bool) (s : Shape Float) :
    WellKnown.shape Decimal.Layout.plain.write s <:+: condition column included s := by
  rw [condition_eq]
  have harguments : WellKnown.shape Decimal.Layout.plain.write s <:+:
      intersectsArguments column s := (List.suffix_append _ _).isInfix
  exact (harguments.trans (Text.infix_paren _)).trans (List.suffix_append _ _).isInfix

end CqlText

theorem WellKnown.isCall_shape (s : Shape Float) : ∃ name arguments, Text.IsCall name arguments ∧
    shape Decimal.Layout.plain.write s = name ++ Text.paren arguments := by
  have nested : ∀ {α : Type} {f : α → Text} (l : List α), (∀ a, Segment (f a)) →
      (Text.joined ", " (l.map f)).IsNested := by
    intro α f l h
    refine (Segment.joined segment_separator fun t ht => ?_).isNested
    obtain ⟨a, -, rfl⟩ := List.mem_map.1 ht
    exact h a
  cases s with
  | polygon rings =>
    exact ⟨"POLYGON ", _, ⟨by decide, nested rings segment_ring, ⟨'P', _, rfl, by decide⟩,
      'P', by decide⟩, rfl⟩
  | multiPolygon polygons =>
    exact ⟨"MULTIPOLYGON ", _, ⟨by decide, nested polygons segment_polygon,
      ⟨'M', _, rfl, by decide⟩, 'M', by decide⟩, rfl⟩

namespace Dialect

/-- The predicate of an included or excluded area, in the languages that have one. -/
def areaPredicate? (d : Dialect) (o : CompileOptions) (included : Bool) (s : Shape Float) :
    Option Text :=
  match d with
  | .filterMarkup => some (FilterMarkup.condition o.geometryColumn included s)
  | .cqlText => some (Text.paren (CqlText.condition o.geometryColumn included s))
  | .whereClause => none

/-- The predicates of areas and filters merged: one of the included areas has to be met, none of the
excluded ones, and the filters under their operator. -/
def composite (d : Dialect) (o : CompileOptions) (included excluded : List (Shape Float))
    (group : Connective) (fragments : List Text) : Text :=
  let g := d.grammar o
  g.merge .and (g.merge .or (included.filterMap (d.areaPredicate? o true)) ::
    excluded.filterMap (d.areaPredicate? o false) ++ [g.merge group fragments])

/-- Whether a value of the filter parameter shows an area: its geometry, and its predicate as a
whole. In CQL text the predicate may be taken apart if the geometry column has parentheses that do
not match. -/
def Shows (d : Dialect) (o : CompileOptions) (included : Bool) (s : Shape Float) (value : Text) :
    Prop :=
  match d with
  | .filterMarkup => Gml.shape Decimal.Layout.plain.write s <:+: value ∧
      Quotation.restore (FilterMarkup.condition o.geometryColumn included s) <:+: value
  | .cqlText => WellKnown.shape Decimal.Layout.plain.write s <:+: value ∧
      (o.geometryColumn.IsNested →
        Quotation.restore (CqlText.condition o.geometryColumn included s) <:+: value)
  | .whereClause => False

variable {o : CompileOptions} {included excluded : List (Shape Float)} {group : Connective}
  {fragments : List Text} {s : Shape Float}

/-- What survives every merge of a predicate it stands in stands in the composite. -/
theorem infix_composite {d : Dialect} {w : Text} {inclusion : Bool} {t : Text}
    (hmerge : ∀ (texts : List Text) (u : Text), u ∈ texts → w <:+: u → ∀ op,
      w <:+: (d.grammar o).merge op texts)
    (hs : s ∈ if inclusion then included else excluded)
    (ht : d.areaPredicate? o inclusion s = some t) (hw : w <:+: t) :
    w <:+: d.composite o included excluded group fragments := by
  cases inclusion with
  | true =>
    refine hmerge _ _ (List.mem_cons_self) (hmerge _ t ?_ hw .or) .and
    exact List.mem_filterMap.2 ⟨s, hs, ht⟩
  | false =>
    refine hmerge _ t (List.mem_append_left _ (List.mem_cons_of_mem _ ?_)) hw .and
    exact List.mem_filterMap.2 ⟨s, hs, ht⟩

/-- What is sent for a text that says something shows it. -/
theorem exists_finish (d : Dialect) (o : CompileOptions) {t : Text} (ht : t ≠ []) :
    ∃ value, (d.grammar o).finish (Quotation.restore t) = some value ∧
      Quotation.restore t <:+: value := by
  have hne : (Quotation.restore t).isEmpty = false := by
    rw [List.isEmpty_eq_false_iff]
    intro hnil
    exact ht (List.map_eq_nil_iff.1 hnil)
  cases d with
  | filterMarkup =>
    refine ⟨FilterMarkup.documentOpen ++ Quotation.restore t ++ FilterMarkup.documentClose, ?_,
      _, _, rfl⟩
    change FilterMarkup.finish _ = _
    rw [FilterMarkup.finish, hne]
    rfl
  | cqlText =>
    refine ⟨Quotation.restore t, ?_, List.infix_rfl⟩
    change PredicateText.finish _ = _
    rw [PredicateText.finish, hne]
    rfl
  | whereClause =>
    refine ⟨Quotation.restore t, ?_, List.infix_rfl⟩
    change some (WhereClause.finish _) = _
    rw [WhereClause.finish, hne]
    rfl

theorem exists_shows_filterMarkup {inclusion : Bool}
    (hs : s ∈ if inclusion then included else excluded) :
    ∃ value, (filterMarkup.grammar o).finish
        (Quotation.restore (filterMarkup.composite o included excluded group fragments)) =
          some value ∧
      filterMarkup.Shows o inclusion s value := by
  have hshape := FilterMarkup.shape_infix_condition o.geometryColumn inclusion s
  have hne : FilterMarkup.condition o.geometryColumn inclusion s ≠ [] := by
    intro hnil
    rw [hnil, List.infix_nil] at hshape
    exact FilterMarkup.shape_ne_nil s hshape
  have hin : FilterMarkup.condition o.geometryColumn inclusion s <:+:
      filterMarkup.composite o included excluded group fragments :=
    infix_composite (fun texts u hu hin op => FilterMarkup.infix_merge hu hin hne op) hs rfl
      List.infix_rfl
  obtain ⟨value, hvalue, hshown⟩ := exists_finish .filterMarkup o (hin.ne_nil hne)
  have hcondition := (infix_restore hin).trans hshown
  have hrestored := infix_restore hshape
  rw [Gml.isRestored_shape s] at hrestored
  exact ⟨value, hvalue, hrestored.trans hcondition, hcondition⟩

theorem exists_shows_cqlText {inclusion : Bool}
    (hs : s ∈ if inclusion then included else excluded) :
    ∃ value, (cqlText.grammar o).finish
        (Quotation.restore (cqlText.composite o included excluded group fragments)) = some value ∧
      cqlText.Shows o inclusion s value := by
  have of_call {name arguments : Text} (hcall : Text.IsCall name arguments)
      (hin : name ++ Text.paren arguments <:+: CqlText.condition o.geometryColumn inclusion s) :
      name ++ Text.paren arguments <:+:
        cqlText.composite o included excluded group fragments := by
    refine infix_composite ?_ hs rfl (hin.trans (Text.infix_paren _))
    intro texts u hu hin op
    exact Junction.infix_merge hcall.isPhrase hu hin op
  obtain ⟨name, arguments, hcall, htext⟩ := WellKnown.isCall_shape s
  have hshape := of_call hcall (htext ▸ CqlText.shape_infix_condition o.geometryColumn inclusion s)
  obtain ⟨value, hvalue, hshown⟩ := exists_finish .cqlText o (hshape.ne_nil (by simp [Text.paren]))
  refine ⟨value, hvalue, ?_, fun hcolumn => ?_⟩
  · have hrestored := (infix_restore hshape).trans hshown
    rwa [← htext, WellKnown.isRestored_shape s] at hrestored
  · have hcondition := of_call (CqlText.isCall_condition hcolumn inclusion s)
      (CqlText.condition_eq _ _ _ ▸ List.infix_rfl)
    rw [← CqlText.condition_eq] at hcondition
    exact (infix_restore hcondition).trans hshown

/-- Every area has its place in the filter parameter. -/
theorem exists_shows_composite {d : Dialect} (hd : d ≠ .whereClause) {inclusion : Bool}
    (hs : s ∈ if inclusion then included else excluded) :
    ∃ value, (d.grammar o).finish
        (Quotation.restore (d.composite o included excluded group fragments)) = some value ∧
      d.Shows o inclusion s value := by
  cases d with
  | whereClause => exact absurd rfl hd
  | filterMarkup => exact exists_shows_filterMarkup hs
  | cqlText => exact exists_shows_cqlText hs

end Dialect
end MapQuery
