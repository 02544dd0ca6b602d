import MapQuery.Proofs.Workspace.Firsts
import MapQuery.Proofs.Workspace.Lookup

/-!
# Wildcards written out

For one layer a wildcard is short for entries without any: one for every stored area, or for every
stored filter of the layer's kind, and for every pair of them where both are wildcards. Writing them
out in the place of the entry leaves what the layer selects, with its order and its operators.
-/

set_option autoImplicit false

namespace MapQuery

/-- A selector for each of the ids; where there are none, no selector in their place. -/
def orNone (ids : List Text) : List (Option Selector) :=
  if ids.isEmpty then [none] else ids.map fun id => some (.id id)

namespace Content

/-- What an entry may name instead of its area, hidden areas included. -/
def areaChoices (c : Content) (e : Entry) : List (Option Selector) :=
  match e.area with
  | some .any => orNone (c.areas.items.map Area.id)
  | selector => [selector]

/-- What an entry may name instead of its filter, disabled filters included. -/
def filterChoices (c : Content) (kind : Text) (e : Entry) : List (Option Selector) :=
  match e.filter with
  | some .any => orNone ((c.filters.items.filter (·.kind == kind)).map NamedFilter.id)
  | selector => [selector]

/-- The entries without wildcards that an entry is short for. -/
def expansion (c : Content) (layer : Layer) (e : Entry) : List Entry :=
  (c.areaChoices e).flatMap fun area => (c.filterChoices layer.kind e).map fun filter =>
    { e with layer := .id layer.id, area := area, filter := filter }

/-- The content with the wildcards of a layer's entries written out. -/
def expanded (c : Content) (layer : Layer) : Content :=
  { c with entries := c.entries.flatMap fun e =>
      if e.appliesTo layer.id then c.expansion layer e else [e] }

variable {c : Content} {layer : Layer} {e e' : Entry}

theorem orNone_ne_nil (ids : List Text) : orNone ids ≠ [] := by
  cases ids <;> simp [orNone]

theorem areaChoices_ne_nil (c : Content) (e : Entry) : c.areaChoices e ≠ [] := by
  unfold areaChoices
  split
  · exact orNone_ne_nil _
  · exact List.cons_ne_nil _ _

theorem filterChoices_ne_nil (c : Content) (kind : Text) (e : Entry) :
    c.filterChoices kind e ≠ [] := by
  unfold filterChoices
  split
  · exact orNone_ne_nil _
  · exact List.cons_ne_nil _ _

theorem any_notMem_orNone (ids : List Text) : some Selector.any ∉ orNone ids := by
  unfold orNone
  split <;> simp

/-- What is written out has no wildcard. -/
theorem concrete_of_mem_expansion (h : e' ∈ c.expansion layer e) :
    e'.layer = .id layer.id ∧ e'.area ≠ some .any ∧ e'.filter ≠ some .any := by
  obtain ⟨area, harea, h⟩ := List.mem_flatMap.1 h
  obtain ⟨filter, hfilter, rfl⟩ := List.mem_map.1 h
  refine ⟨rfl, ?_, ?_⟩
  · rintro rfl
    unfold areaChoices at harea
    split at harea
    · exact any_notMem_orNone _ harea
    · next hany => exact hany (List.mem_singleton.1 harea).symm
  · rintro rfl
    unfold filterChoices at hfilter
    split at hfilter
    · exact any_notMem_orNone _ hfilter
    · next hany => exact hany (List.mem_singleton.1 hfilter).symm

theorem entriesFor_expanded (c : Content) (layer : Layer) :
    (c.expanded layer).entriesFor layer.id =
      (c.entriesFor layer.id).flatMap (c.expansion layer) := by
  unfold entriesFor expanded
  induction c.entries with
  | nil => rfl
  | cons e rest ih =>
    rw [List.flatMap_cons, List.filter_append, ih]
    cases happlies : e.appliesTo layer.id with
    | false => simp [happlies]
    | true =>
      have hall : ∀ e' ∈ c.expansion layer e, e'.appliesTo layer.id = true := by
        intro e' he'
        have := (concrete_of_mem_expansion he').1
        simp [Entry.appliesTo, Selector.covers, this]
      rw [List.filter_cons_of_pos happlies, List.flatMap_cons, if_pos rfl,
        List.filter_eq_self.2 hall]

/-! ## What the written out entries select -/

theorem flatMap_orNone {α : Type} {f : Option Selector → List α} (h : f none = [])
    (ids : List Text) : (orNone ids).flatMap f = ids.flatMap fun id => f (some (.id id)) := by
  cases ids with
  | nil => simp [orNone, h]
  | cons id rest => simp [orNone, List.flatMap_map]

/-- The items that look-ups by their ids find. -/
theorem flatMap_find? {α : Type} [Keyed α] {c : Catalog α} {items : List α}
    (h : ∀ a ∈ items, a ∈ c.items) (p : α → Bool) :
    (items.flatMap fun a => (c.find? (Keyed.key a)).toList.filter p) = items.filter p := by
  have hfound : ∀ a ∈ items, (c.find? (Keyed.key a)).toList.filter p = [a].filter p := by
    intro a ha
    rw [Catalog.find?_of_mem (h a ha)]
    rfl
  rw [List.flatMap_def, List.map_congr_left hfound, ← List.flatMap_def, ← List.filter_flatMap,
    List.flatMap_singleton']

theorem flatMap_areaChoices (c : Content) (e : Entry) :
    ((c.areaChoices e).flatMap fun area => c.areasOf { e with area := area }) = c.areasOf e := by
  unfold areaChoices
  split
  · next hany =>
    rw [flatMap_orNone rfl, List.flatMap_map]
    simp only [areasOf, hany]
    exact flatMap_find? (fun _ ha => ha) _
  · exact List.flatMap_singleton _ _

theorem flatMap_filterChoices (c : Content) (kind : Text) (e : Entry) :
    ((c.filterChoices kind e).flatMap fun filter => c.filtersOf kind { e with filter := filter }) =
      c.filtersOf kind e := by
  unfold filterChoices
  split
  · next hany =>
    rw [flatMap_orNone rfl, List.flatMap_map]
    simp only [filtersOf, hany]
    refine (flatMap_find? (fun f hf => (List.mem_filter.1 hf).1) _).trans ?_
    rw [List.filter_filter]
  · exact List.flatMap_singleton _ _

/-- Every area comes once for each of the filters, which adds nothing. -/
theorem distinctBy_areasOf_expansion (c : Content) (layer : Layer) (e : Entry) :
    distinctBy Area.id ((c.expansion layer e).flatMap c.areasOf) =
      distinctBy Area.id (c.areasOf e) := by
  rw [← flatMap_areaChoices, expansion, List.flatMap_assoc]
  apply distinctBy_flatMap_congr
  intro area _
  rw [List.flatMap_map]
  exact distinctBy_flatMap_const (filterChoices_ne_nil c layer.kind e)
    (c.areasOf { e with area := area })

/-- The filters come once more for each of the areas. -/
theorem distinctBy_filtersOf_expansion (c : Content) (layer : Layer) (e : Entry) :
    distinctBy (·.1.id) ((c.expansion layer e).flatMap fun e' =>
        (c.filtersOf layer.kind e').map (·, e'.group)) =
      distinctBy (·.1.id) ((c.filtersOf layer.kind e).map (·, e.group)) := by
  have hfilters : ∀ area, ((c.filterChoices layer.kind e).map fun filter =>
      ({ e with layer := .id layer.id, area := area, filter := filter } : Entry)).flatMap
        (fun e' => (c.filtersOf layer.kind e').map (·, e'.group)) =
      (c.filtersOf layer.kind e).map (·, e.group) := by
    intro area
    rw [List.flatMap_map, ← flatMap_filterChoices c layer.kind e, List.map_flatMap]
    rfl
  rw [expansion, List.flatMap_assoc]
  simp only [hfilters]
  exact distinctBy_flatMap_const (areaChoices_ne_nil c e) _

theorem chosenAreas_expansion (c : Content) (layer : Layer) (entries : List Entry)
    (included : Bool) :
    c.chosenAreas (entries.flatMap (c.expansion layer)) included =
      c.chosenAreas entries included := by
  have hkept : ∀ e : Entry, (c.expansion layer e).filter (·.includesArea == included) =
      if e.includesArea == included then c.expansion layer e else [] := by
    intro e
    have hsame : ∀ e' ∈ c.expansion layer e, e'.includesArea = e.includesArea := by
      intro e' he'
      obtain ⟨area, -, he'⟩ := List.mem_flatMap.1 he'
      obtain ⟨filter, -, rfl⟩ := List.mem_map.1 he'
      rfl
    split
    · next h => exact List.filter_eq_self.2 fun e' he' => by rw [hsame e' he', h]
    · next h => exact List.filter_eq_nil_iff.2 fun e' he' => by rw [hsame e' he']; exact h
  have hentries : (entries.flatMap (c.expansion layer)).filter (·.includesArea == included) =
      (entries.filter (·.includesArea == included)).flatMap (c.expansion layer) := by
    induction entries with
    | nil => rfl
    | cons e rest ih =>
      rw [List.flatMap_cons, List.filter_append, ih, hkept, List.filter_cons]
      split
      · rfl
      · rfl
  unfold chosenAreas
  rw [hentries, List.flatMap_assoc]
  have hareas := distinctBy_flatMap_congr (l := entries.filter (·.includesArea == included))
    fun e _ => distinctBy_areasOf_expansion c layer e
  simp only [hareas]

theorem chosenFilters_expansion (c : Content) (layer : Layer) (entries : List Entry) :
    c.chosenFilters layer.kind (entries.flatMap (c.expansion layer)) =
      c.chosenFilters layer.kind entries := by
  unfold chosenFilters
  rw [List.flatMap_assoc]
  exact distinctBy_flatMap_congr fun e _ => distinctBy_filtersOf_expansion c layer e

theorem group_expansion (c : Content) (layer : Layer) (entries : List Entry) :
    (entries.flatMap (c.expansion layer)).head?.map Entry.group = entries.head?.map Entry.group := by
  cases entries with
  | nil => rfl
  | cons e rest =>
    obtain ⟨area, areas, hareas⟩ := List.exists_cons_of_ne_nil (areaChoices_ne_nil c e)
    obtain ⟨filter, filters, hfilters⟩ :=
      List.exists_cons_of_ne_nil (filterChoices_ne_nil c layer.kind e)
    simp [expansion, hareas, hfilters]

/-- Writing out the wildcards of a layer's entries leaves no wildcard in them and the resolution of
the layer as it was. -/
theorem resolve_expanded (c : Content) (layer : Layer) :
    (∀ e ∈ (c.expanded layer).entriesFor layer.id,
      e.layer = .id layer.id ∧ e.area ≠ some .any ∧ e.filter ≠ some .any) ∧
    (c.expanded layer).resolve layer = c.resolve layer := by
  rw [entriesFor_expanded]
  constructor
  · intro e he
    obtain ⟨e', -, he⟩ := List.mem_flatMap.1 he
    exact concrete_of_mem_expansion he
  · have areas (included : Bool) : (c.expanded layer).chosenAreas
        ((c.entriesFor layer.id).flatMap (c.expansion layer)) included =
          c.chosenAreas (c.entriesFor layer.id) included :=
      chosenAreas_expansion c layer _ included
    have filters : (c.expanded layer).chosenFilters layer.kind
        ((c.entriesFor layer.id).flatMap (c.expansion layer)) =
          c.chosenFilters layer.kind (c.entriesFor layer.id) :=
      chosenFilters_expansion c layer _
    simp only [resolve, entriesFor_expanded, areas, filters, group_expansion]

end Content
end MapQuery
