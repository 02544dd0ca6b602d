import MapQuery.Request.Compiled

/-!
# Selections of feature ids

When a filter that does nothing but select feature ids stands alone, and what becomes of it where it
has to and does not.
-/

set_option autoImplicit false

namespace MapQuery

theorem Filter.isIdSelection_iff {f : Filter} :
    f.isIdSelection = true ↔ ∃ list, f.nodes = [.ids list] := by
  unfold isIdSelection
  split
  · next list hlist => simp [hlist]
  · next hother =>
    constructor
    · intro h
      cases h
    · rintro ⟨list, hlist⟩
      exact absurd hlist (hother list)

namespace Resolution

variable {r : Resolution}

theorem isStandaloneSelection_iff {f : Filter} :
    r.isStandaloneSelection f = true ↔
      r.filters.length = 1 ∧ f.isIdSelection = true ∧ r.included = [] ∧ r.excluded = [] := by
  simp only [isStandaloneSelection, Bool.and_eq_true, beq_iff_eq, List.isEmpty_iff, and_assoc]

theorem isStandaloneSelection_eq_false (h : r.filters.length ≠ 1) (f : Filter) :
    r.isStandaloneSelection f = false := by
  rw [Bool.eq_false_iff]
  intro hselection
  exact h (isStandaloneSelection_iff.1 hselection).1

end Resolution

/-- A selection of feature ids is left out only where it has to stand alone and does not. -/
theorem ChosenFilter.refusal?_of_ids (g : Grammar) (columns : Option Columns) (r : Resolution)
    {f : ChosenFilter} {list : List Text} (h : f.filter.nodes = [.ids list]) :
    f.refusal? g columns r =
      if g.idsStandAlone && !r.isStandaloneSelection f.filter then some (.mixedIds f.id)
      else none := by
  have hcolumns : (columns.bind fun cs => cs.firstFault? f.filter) = none := by
    cases columns with
    | none => rfl
    | some cs => simp [Columns.firstFault?, Filter.columns, h, Node.columnsOfList, Node.columns]
  have hselects : f.filter.selectsIds = true := by
    simp [Filter.selectsIds, h, Node.anySelectsIds, Node.selectsIds]
  rw [refusal?, hcolumns, hselects, Bool.and_true]

/-- Where feature ids have to stand alone, a filter that is written and selects any does. -/
theorem ChosenFilter.isStandaloneSelection_of_refusal?_eq_none {g : Grammar}
    {columns : Option Columns} {r : Resolution} {f : ChosenFilter} (halone : g.idsStandAlone = true)
    (hselects : f.filter.selectsIds = true) (h : f.refusal? g columns r = none) :
    r.isStandaloneSelection f.filter = true := by
  unfold refusal? at h
  rw [halone, hselects] at h
  split at h
  · cases h
  · cases hselection : r.isStandaloneSelection f.filter with
    | true => rfl
    | false =>
      rw [hselection] at h
      cases h

end MapQuery
