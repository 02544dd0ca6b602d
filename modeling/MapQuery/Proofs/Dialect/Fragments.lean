import MapQuery.Proofs.Dialect.Geometries
import MapQuery.Proofs.Junction.Regrouping

/-!
# Fragments in composites

What a language says of a filter, and where it stays when the fragments of filters are merged with
one another and with the predicates of areas: in filter markup as a whole, in the text languages by
its phrases and by its groups.
-/

set_option autoImplicit false

namespace MapQuery

/-- Whether a value keeps a fragment that was merged with others: its groups stand in the merged
text, the groups that this gives to the conjunction with areas stand in the value, and so does every
phrase of the fragment, whatever the parentheses around it are like. -/
structure PredicateText.Keeps (op : Connective) (fragments : List Text) (fragment value : Text) :
    Prop where
  merged : ∀ m ∈ Junction.members op fragment, m <:+: Junction.merge op fragments
  sent : ∀ g ∈ Junction.members .and (Junction.merge op fragments), Quotation.restore g <:+: value
  phrases : ∀ name rest, Text.IsPhrase name rest → name ++ rest <:+: fragment →
    Quotation.restore (name ++ rest) <:+: value
  /-- Where the parentheses of all fragments match, its groups stand in the value. One that is the
  only group of all may be taken apart there. -/
  groups : (∀ t ∈ fragments, t.IsNested) → ∀ m ∈ Junction.members op fragment,
    fragments.flatMap (Junction.members op) ≠ [m] → Quotation.restore m <:+: value
  parts : (∀ t ∈ fragments, t.IsNested) → ∀ m ∈ Junction.members op fragment,
    ∀ part ∈ Junction.members .and m, Quotation.restore part <:+: value

theorem PredicateText.keeps_merge {op : Connective} {fragments texts : List Text}
    {fragment value : Text} (hfragment : fragment ∈ fragments)
    (hmerged : Junction.merge op fragments ∈ texts)
    (hvalue : Quotation.restore (Junction.merge .and texts) <:+: value) :
    Keeps op fragments fragment value := by
  have hgroup {m : Text} (hm : m ∈ Junction.members op fragment) :
      m ∈ fragments.flatMap (Junction.members op) := List.mem_flatMap.2 ⟨fragment, hfragment, hm⟩
  have hsent {g w : Text} (hg : g ∈ Junction.members .and (Junction.merge op fragments))
      (hw : w <:+: g) : Quotation.restore w <:+: value :=
    (infix_restore (Junction.infix_merge_of_mem_members hmerged hg hw)).trans hvalue
  constructor
  case merged =>
    intro m hm
    exact Junction.infix_joinMembers (hgroup hm) List.infix_rfl op
  case sent =>
    intro g hg
    exact hsent hg List.infix_rfl
  case phrases =>
    intro name rest h hin
    have hfirst := Junction.infix_merge h hfragment hin op
    exact (infix_restore (Junction.infix_merge h hmerged hfirst .and)).trans hvalue
  case groups =>
    intro hnested m hm hmore
    have hsettled : Junction.IsSettled op _ := Junction.isSettled_flatMap_members hnested
    obtain ⟨g, hg, hin⟩ := hsettled.exists_infix (hgroup hm) hmore .and
    exact hsent hg hin
  case parts =>
    intro hnested m hm part hpart
    have hsettled : Junction.IsSettled op _ := Junction.isSettled_flatMap_members hnested
    obtain ⟨g, hg, hin⟩ := hsettled.exists_infix_of_mem_members (hgroup hm) hpart
    exact hsent hg hin

namespace Dialect

/-- Whether a value of the filter parameter keeps a fragment that was merged with others. -/
def Keeps (d : Dialect) (op : Connective) (fragments : List Text) (fragment value : Text) : Prop :=
  match d with
  | .filterMarkup => Quotation.restore fragment <:+: value
  | .cqlText | .whereClause => PredicateText.Keeps op fragments fragment value

/-- What a filter says has its place in the filter parameter. -/
theorem exists_keeps_composite (d : Dialect) (o : CompileOptions)
    (included excluded : List (Shape Float)) (group : Connective) {fragments : List Text}
    {op : Connective} {f : Filter} (hmem : (d.grammar o).fragment op f ∈ fragments)
    (hne : (d.grammar o).fragment op f ≠ []) :
    ∃ value, (d.grammar o).finish
        (Quotation.restore (d.composite o included excluded group fragments)) = some value ∧
      d.Keeps group fragments ((d.grammar o).fragment op f) value := by
  have htext (hmerge : (d.grammar o).merge = Junction.merge) :
      ∃ value, (d.grammar o).finish
          (Quotation.restore (d.composite o included excluded group fragments)) = some value ∧
        PredicateText.Keeps group fragments ((d.grammar o).fragment op f) value := by
    have hfilled : Text.blank ((d.grammar o).fragment op f) = false := by
      rw [Grammar.fragment, hmerge] at hne ⊢
      exact Junction.blank_merge hne
    have hmerged : Text.blank (Junction.merge group fragments) = false :=
      Junction.blank_merge_of_mem hmem hfilled
    have hcomposite : d.composite o included excluded group fragments ≠ [] := by
      simp only [composite, hmerge]
      exact Text.ne_nil_of_blank_eq_false (Junction.blank_merge_of_mem (by simp) hmerged)
    obtain ⟨value, hvalue, hshown⟩ := exists_finish d o hcomposite
    simp only [composite, hmerge] at hshown
    exact ⟨value, hvalue, PredicateText.keeps_merge hmem (by simp) hshown⟩
  cases d with
  | filterMarkup =>
    have hmerged := FilterMarkup.infix_merge hmem List.infix_rfl hne group
    have hin : (filterMarkup.grammar o).fragment op f <:+:
        filterMarkup.composite o included excluded group fragments :=
      FilterMarkup.infix_merge (List.mem_append_right _ (List.mem_singleton_self _)) hmerged hne .and
    obtain ⟨value, hvalue, hshown⟩ := exists_finish .filterMarkup o (hin.ne_nil hne)
    exact ⟨value, hvalue, (infix_restore hin).trans hshown⟩
  | cqlText => exact htext rfl
  | whereClause => exact htext rfl

end Dialect
end MapQuery
