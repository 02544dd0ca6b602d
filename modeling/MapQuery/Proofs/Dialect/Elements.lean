import MapQuery.Proofs.Dialect.Criteria
import MapQuery.Proofs.Markup.Restoring
import MapQuery.Proofs.Markup.Search
import MapQuery.Proofs.Text.Figures

/-!
# Elements of filter markup

Every predicate that a filter document is put together from is one element, and only selections of
feature ids hold elements of their name.
-/

set_option autoImplicit false

namespace MapQuery.FilterMarkup

open Markup (Spells Tree IsTag encode)

/-- The name of the elements that select feature ids. -/
def idName : Text := "ogc:FeatureId"

theorem idMark_eq_cons : idMark = '<' :: idName := by decide

/-- Whether a text spells trees in which no name begins like that of a selection of feature ids. -/
structure IsIdFree (s : Text) (ts : List Tree) : Prop where
  spells : Spells s ts
  names : ∀ n ∈ Tree.namesOfList ts, ¬ idName <+: n

namespace IsIdFree

variable {name s s' : Text} {as : List (Text × Text)} {ts ts' : List Tree}

theorem nil : IsIdFree [] [] := ⟨.nil, by simp [Tree.namesOfList]⟩

theorem append (h : IsIdFree s ts) (h' : IsIdFree s' ts') : IsIdFree (s ++ s') (ts ++ ts') := by
  refine ⟨h.spells.append h'.spells, ?_⟩
  rw [Tree.namesOfList_eq_flatMap, List.flatMap_append, ← Tree.namesOfList_eq_flatMap,
    ← Tree.namesOfList_eq_flatMap]
  exact List.forall_mem_append.2 ⟨h.names, h'.names⟩

theorem flatten {texts : List Text} (h : ∀ s ∈ texts, ∃ ts, IsIdFree s ts) :
    ∃ ts, IsIdFree texts.flatten ts := by
  induction texts with
  | nil => exact ⟨[], nil⟩
  | cons s rest ih =>
    obtain ⟨ts, hts⟩ := h s List.mem_cons_self
    obtain ⟨us, hus⟩ := ih fun u hu => h u (List.mem_cons_of_mem s hu)
    exact ⟨ts ++ us, hts.append hus⟩

theorem flatMap {α : Type} {f : α → Text} (l : List α) (h : ∀ a, ∃ ts, IsIdFree (f a) ts) :
    ∃ ts, IsIdFree (l.flatMap f) ts := by
  rw [List.flatMap_def]
  apply flatten
  intro s hs
  obtain ⟨a, -, rfl⟩ := List.mem_map.1 hs
  exact h a

theorem element (htag : IsTag name as) (hname : ¬ idName <+: name) (h : IsIdFree s ts) :
    IsIdFree (Markup.element name as s) [.element name as ts] := by
  refine ⟨.single htag h.spells, ?_⟩
  simp only [Tree.namesOfList, Tree.names, List.append_nil, List.mem_cons]
  rintro n (rfl | hn)
  · exact hname
  · exact h.names n hn

theorem text (htag : IsTag name as) (hname : ¬ idName <+: name) (t : Text) :
    IsIdFree (Markup.element name as (encode t))
      [.element name as (Tree.contentOfText t)] := by
  refine ⟨.ofText htag t, ?_⟩
  have hcontent : Tree.namesOfList (Tree.contentOfText t) = [] := by
    unfold Tree.contentOfText
    split <;> rfl
  simp only [Tree.namesOfList, Tree.names, hcontent, List.append_nil, List.mem_singleton]
  rintro n rfl
  exact hname

theorem restore (h : IsIdFree s ts) :
    IsIdFree (Quotation.restore s) (Tree.mapTextOfList Quotation.restore ts) :=
  ⟨h.spells.restore, by rw [Tree.namesOfList_mapText]; exact h.names⟩

theorem occursIn_eq_false (h : IsIdFree s ts) : Text.occursIn idMark s = false := by
  rw [idMark_eq_cons]
  exact h.spells.occursIn_eq_false (by decide) h.names

end IsIdFree

/-- Whether a text is nothing, or one element without selections of feature ids. -/
def IsPart (s : Text) : Prop := s = [] ∨ ∃ t, IsIdFree s [t]

theorem IsPart.exists_of_ne_nil {s : Text} (h : IsPart s) (hs : s ≠ []) : ∃ t, IsIdFree s [t] := by
  rcases h with rfl | ht
  · exact absurd rfl hs
  · exact ht

theorem IsPart.restore {s : Text} (h : IsPart s) : IsPart (Quotation.restore s) := by
  rcases h with rfl | ⟨t, ht⟩
  · exact Or.inl rfl
  · exact Or.inr ⟨_, ht.restore⟩

theorem isIdFree_join (op : Connective) {s : Text} {ts : List Tree} (h : IsIdFree s ts) :
    IsIdFree (element op.name s) [.element ("ogc:" ++ op.name) [] ts] := by
  have htag : IsTag ("ogc:" ++ op.name) [] := by cases op <;> decide
  have hname : ¬ idName <+: "ogc:" ++ op.name := by cases op <;> decide
  exact h.element htag hname

theorem isPart_merge (op : Connective) {parts : List Text} (h : ∀ p ∈ parts, IsPart p) :
    IsPart (merge op parts) := by
  have hsaid : ∀ p ∈ parts.filter (!·.isEmpty), ∃ t, IsIdFree p [t] := by
    intro p hp
    obtain ⟨hmem, hne⟩ := List.mem_filter.1 hp
    exact (h p hmem).exists_of_ne_nil (by simpa using hne)
  unfold merge Writer.joinParts
  generalize parts.filter (!·.isEmpty) = said at hsaid
  match said with
  | [] => exact Or.inl rfl
  | [p] => exact Or.inr (hsaid p (List.mem_singleton_self p))
  | p :: q :: rest =>
    obtain ⟨ts, hts⟩ := IsIdFree.flatten fun s hs => (hsaid s hs).imp' (fun t => [t]) fun _ ht => ht
    exact Or.inr ⟨_, isIdFree_join op hts⟩

/-! ### Nodes -/

theorem not_prefix_tag_name {tag : Tag} (h : tag ≠ .ids) : ¬ idName <+: "ogc:" ++ tag.name := by
  cases tag with
  | group op => cases op <;> decide
  | compare op =>
    have hall : ∀ op ∈ Operator.all, ¬ idName <+: "ogc:" ++ op.name := by decide
    exact hall op (Operator.mem_all op)
  | ids => exact absurd rfl h
  | not | between | unknown => decide

theorem names_textTree (name t : Text) : (Criterion.textTree name t).names = ["ogc:" ++ name] := by
  unfold Criterion.textTree Tree.contentOfText
  split <;> rfl

theorem not_prefix_tagged {tag : Tag} (htag : tag ≠ .ids) {as : List (Text × Text)}
    {ts : List Tree} (h : ∀ n ∈ Tree.namesOfList ts, ¬ idName <+: n) :
    ∀ n ∈ (Criterion.tagged tag as ts).names, ¬ idName <+: n :=
  List.forall_mem_cons.2 ⟨not_prefix_tag_name htag, h⟩

mutual

theorem not_prefix_names : ∀ c : Criterion, ∀ n ∈ c.tree.names, ¬ idName <+: n
  | .group op parts => not_prefix_tagged Tag.noConfusion (not_prefix_namesOfList parts)
  | .not part => by
    apply not_prefix_tagged Tag.noConfusion
    rw [Tree.namesOfList, Tree.namesOfList, List.append_nil]
    exact not_prefix_names part
  | .relate r column literal => by
    apply not_prefix_tagged Tag.noConfusion
    simp only [Tree.namesOfList, names_textTree]
    decide
  | .like column pattern style => by
    apply not_prefix_tagged Tag.noConfusion
    simp only [Tree.namesOfList, names_textTree]
    decide
  | .isNull column => by
    apply not_prefix_tagged Tag.noConfusion
    simp only [Tree.namesOfList, names_textTree]
    decide
  | .between column lower upper => by
    apply not_prefix_tagged Tag.noConfusion
    simp only [Tree.namesOfList, Tree.names, names_textTree]
    decide

theorem not_prefix_namesOfList : ∀ cs : List Criterion,
    ∀ n ∈ Tree.namesOfList (Criterion.trees cs), ¬ idName <+: n
  | [] => fun _ hn => nomatch hn
  | c :: rest => List.forall_mem_append.2 ⟨not_prefix_names c, not_prefix_namesOfList rest⟩

end

theorem isPart_node {n : Node} (h : n.selectsIds = false) : IsPart (writer.node n) := by
  rw [node_eq_markup h]
  cases n.criterion? with
  | none => exact Or.inl rfl
  | some c =>
    refine Or.inr ⟨c.tree, c.spells_markup, ?_⟩
    rw [Tree.namesOfList, Tree.namesOfList, List.append_nil]
    exact not_prefix_names c

/-! ### Areas -/

theorem encode_of_isFigures {t : Text} (h : t.IsFigures) : encode t = t := by
  apply Markup.encode_eq_self
  intro c hc hreserved
  have hnone : ∀ c ∈ Markup.reserved, isFigure c = false := by
    rw [Markup.forall_mem_reserved]
    decide
  exact ne_of_isFigure (h c hc) (hnone c hreserved) rfl

theorem isIdFree_figures {name : Text} {as : List (Text × Text)} (htag : IsTag name as)
    (hname : ¬ idName <+: name) {t : Text} (h : t.IsFigures) :
    IsIdFree (Markup.element name as t) [.element name as (Tree.contentOfText t)] := by
  have htext := IsIdFree.text htag hname t
  rwa [encode_of_isFigures h] at htext

theorem isIdFree_property (column : Text) :
    IsIdFree (property column) [Criterion.textTree "PropertyName" column] :=
  .text (by decide) (by decide) column

section

variable {number : Float → Text} (hnumber : ∀ x, (number x).IsFigures)
include hnumber

theorem isIdFree_ring (r : Ring Float) : ∃ t, IsIdFree (Gml.ring number r) [t] := by
  have hpositions : (Text.joined " " ((closedRing r).map (Gml.position number))).IsFigures := by
    apply Text.isFigures_joined (by decide)
    intro t ht
    obtain ⟨p, -, rfl⟩ := List.mem_map.1 ht
    exact Text.isFigures_append.2 ⟨Text.isFigures_append.2 ⟨hnumber p.1, by decide⟩, hnumber p.2⟩
  exact ⟨_, (isIdFree_figures (by decide) (by decide) hpositions).element (by decide) (by decide)⟩

theorem isIdFree_boundaries (p : Polygon Float) : ∃ ts, IsIdFree (Gml.boundaries number p) ts := by
  cases p with
  | nil => exact ⟨[], .nil⟩
  | cons exterior holes =>
    obtain ⟨t, ht⟩ := isIdFree_ring hnumber exterior
    obtain ⟨ts, hts⟩ := IsIdFree.flatMap (f := fun hole =>
        Markup.element "gml:innerBoundaryIs" [] (Gml.ring number hole)) holes fun hole =>
      (isIdFree_ring hnumber hole).imp' _ fun _ h => h.element (by decide) (by decide)
    exact ⟨_, (ht.element (by decide) (by decide)).append hts⟩

theorem isIdFree_polygon {as : List (Text × Text)} (htag : IsTag "gml:Polygon" as)
    (p : Polygon Float) : ∃ t, IsIdFree (Gml.polygon number as p) [t] := by
  obtain ⟨ts, hts⟩ := isIdFree_boundaries hnumber p
  exact ⟨_, hts.element htag (by decide)⟩

theorem isIdFree_shape (s : Shape Float) : ∃ t, IsIdFree (Gml.shape number s) [t] := by
  cases s with
  | polygon rings => exact isIdFree_polygon hnumber (by decide) rings
  | multiPolygon polygons =>
    obtain ⟨ts, hts⟩ := IsIdFree.flatMap (f := fun p =>
        Markup.element "gml:polygonMember" [] (Gml.polygon number [] p)) polygons fun p =>
      (isIdFree_polygon hnumber (by decide) p).imp' _ fun _ h => h.element (by decide) (by decide)
    exact ⟨_, hts.element (by decide) (by decide)⟩

end

theorem isIdFree_intersects (column : Text) (s : Shape Float) :
    ∃ t, IsIdFree (intersects column s) [t] := by
  obtain ⟨t, ht⟩ := isIdFree_shape Decimal.isFigures_write s
  exact ⟨_, ((isIdFree_property column).append ht).element (by decide) (by decide)⟩

theorem isPart_spatial (column : Text) (r : Resolution) :
    ∀ p ∈ (spatial column r).predicates, IsPart p := by
  intro p hp
  rcases List.mem_cons.1 hp with rfl | hp
  · apply isPart_merge
    intro q hq
    obtain ⟨a, -, rfl⟩ := List.mem_map.1 hq
    exact Or.inr (isIdFree_intersects column a.shape)
  · obtain ⟨a, -, rfl⟩ := List.mem_map.1 hp
    obtain ⟨t, ht⟩ := isIdFree_intersects column a.shape
    exact Or.inr ⟨_, ht.element (by decide) (by decide)⟩

/-! ### Time windows -/

theorem isIdFree_time (w : TimeWindow) (wholeSeconds : Bool) (lower upper : Instant) :
    ∃ t, IsIdFree (time w wholeSeconds lower upper) [t] := by
  have hbound : ∀ (r : Relation) (column : Text) (a : Instant), ∃ t, IsIdFree (element r.name
      (property column ++ element "Literal" (Timestamp.write (!wholeSeconds) a))) [t] := by
    intro r column a
    have htag : IsTag ("ogc:" ++ r.name) [] := by cases r <;> decide
    have hname : ¬ idName <+: "ogc:" ++ r.name := by cases r <;> decide
    have hinstant : IsIdFree (element "Literal" (Timestamp.write (!wholeSeconds) a)) _ :=
      isIdFree_figures (by decide) (by decide) (Timestamp.isFigures_write _ a)
    exact ⟨_, ((isIdFree_property column).append hinstant).element htag hname⟩
  obtain ⟨t, ht⟩ := hbound .lessOrEqual w.startColumn upper
  obtain ⟨u, hu⟩ := hbound .greaterOrEqual w.endColumn lower
  have hboth := ht.append (hu.append .nil)
  exact ⟨_, isIdFree_join .and hboth⟩

end MapQuery.FilterMarkup
