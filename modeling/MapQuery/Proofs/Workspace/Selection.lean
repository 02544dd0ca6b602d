import MapQuery.Proofs.Workspace.Announcements
import MapQuery.Proofs.Workspace.Firsts

/-!
# What entries select

Which of the stored areas and filters the entries of a layer select, said of each of them alone. A
resolution holds these and no others, and it is the same without the rest of the content.
-/

set_option autoImplicit false

namespace MapQuery

namespace Entry

/-- Whether an entry names an area, or all of them. -/
def selectsArea (a : Area) (e : Entry) : Bool := e.area.any (·.covers a.id)

/-- Whether an entry names a filter, or all filters of the kind that this one is for. -/
def selectsFilter (kind : Text) (f : NamedFilter) (e : Entry) : Bool :=
  match e.filter with
  | none => false
  | some .any => f.kind == kind
  | some (.id id) => id == f.id

end Entry

namespace Content

/-- The shown areas that some entry of a layer includes, or those that some entry excludes. -/
def selectedAreas (c : Content) (layerId : Text) (included : Bool) : List Area :=
  c.areas.items.filter fun a => a.shown &&
    (c.entriesFor layerId).any fun e => e.includesArea == included && e.selectsArea a

/-- The enabled filters that some entry of a layer selects. -/
def selectedFilters (c : Content) (layer : Layer) : List NamedFilter :=
  c.filters.items.filter fun f => f.enabled &&
    (c.entriesFor layer.id).any (·.selectsFilter layer.kind f)

/-- The operator of the first entry that selects a filter. -/
def groupOf? (c : Content) (layer : Layer) (f : NamedFilter) : Option Connective :=
  ((c.entriesFor layer.id).find? (·.selectsFilter layer.kind f)).map Entry.group

/-- The content without what the entries of a layer do not select, and without other entries. -/
def pruned (c : Content) (layer : Layer) : Content where
  areas := c.areas.restrict fun a =>
    (c.selectedAreas layer.id true ++ c.selectedAreas layer.id false).any (·.id == a.id)
  filters := c.filters.restrict fun f => (c.selectedFilters layer).any (·.id == f.id)
  entries := c.entriesFor layer.id

variable {c : Content} {layer : Layer} {e : Entry}

theorem mem_areasOf {a : Area} :
    a ∈ c.areasOf e ↔ a ∈ c.areas.items ∧ a.shown = true ∧ e.selectsArea a = true := by
  unfold areasOf Entry.selectsArea
  rcases e.area with - | - | id
  · simp
  · simp [Selector.covers]
  · simp only [List.mem_filter, Option.mem_toList, Option.any_some, Selector.covers, beq_iff_eq]
    constructor
    · rintro ⟨hfind, hshown⟩
      obtain ⟨ha, hid⟩ := Catalog.mem_of_find? hfind
      exact ⟨ha, hshown, hid.symm⟩
    · rintro ⟨ha, hshown, rfl⟩
      exact ⟨Catalog.find?_of_mem ha, hshown⟩

theorem mem_filtersOf {kind : Text} {f : NamedFilter} :
    f ∈ c.filtersOf kind e ↔
      f ∈ c.filters.items ∧ f.enabled = true ∧ e.selectsFilter kind f = true := by
  unfold filtersOf Entry.selectsFilter
  rcases e.filter with - | - | id
  · simp
  · simp
  · simp only [List.mem_filter, Option.mem_toList, beq_iff_eq]
    constructor
    · rintro ⟨hfind, henabled⟩
      obtain ⟨hf, hid⟩ := Catalog.mem_of_find? hfind
      exact ⟨hf, henabled, hid.symm⟩
    · rintro ⟨hf, henabled, rfl⟩
      exact ⟨Catalog.find?_of_mem hf, henabled⟩

theorem mem_selectedAreas {layerId : Text} {included : Bool} {a : Area} :
    a ∈ c.selectedAreas layerId included ↔
      ∃ e ∈ c.entriesFor layerId, e.includesArea = included ∧ a ∈ c.areasOf e := by
  simp only [selectedAreas, List.mem_filter, Bool.and_eq_true, List.any_eq_true, beq_iff_eq,
    mem_areasOf]
  constructor
  · rintro ⟨ha, hshown, e, he, hincluded, hselects⟩
    exact ⟨e, he, hincluded, ha, hshown, hselects⟩
  · rintro ⟨e, he, hincluded, ha, hshown, hselects⟩
    exact ⟨ha, hshown, e, he, hincluded, hselects⟩

theorem mem_selectedFilters {f : NamedFilter} :
    f ∈ c.selectedFilters layer ↔ ∃ e ∈ c.entriesFor layer.id, f ∈ c.filtersOf layer.kind e := by
  simp only [selectedFilters, List.mem_filter, Bool.and_eq_true, List.any_eq_true, mem_filtersOf]
  constructor
  · rintro ⟨hf, henabled, e, he, hselects⟩
    exact ⟨e, he, hf, henabled, hselects⟩
  · rintro ⟨e, he, hf, henabled, hselects⟩
    exact ⟨hf, henabled, e, he, hselects⟩

/-- The areas of a resolution are the selected ones. -/
theorem mem_chosenAreas {layerId : Text} {included : Bool} {x : ChosenArea} :
    x ∈ c.chosenAreas (c.entriesFor layerId) included ↔
      ∃ a ∈ c.selectedAreas layerId included, x = ⟨a.id, a.shape⟩ := by
  have hmem (a : Area) : a ∈ distinctBy Area.id (((c.entriesFor layerId).filter
      (·.includesArea == included)).flatMap c.areasOf) ↔ a ∈ c.selectedAreas layerId included := by
    rw [mem_distinctBy_of_injective]
    · simp only [mem_selectedAreas, List.mem_flatMap, List.mem_filter, beq_iff_eq, and_assoc]
    · intro a ha b hb hid
      obtain ⟨e, -, ha⟩ := List.mem_flatMap.1 ha
      obtain ⟨e', -, hb⟩ := List.mem_flatMap.1 hb
      exact Catalog.eq_of_key_eq (mem_areasOf.1 ha).1 (mem_areasOf.1 hb).1 hid
  simp only [chosenAreas, List.mem_map, hmem, eq_comm]

/-- A selected area is counted once. -/
theorem length_chosenAreas (c : Content) (layerId : Text) (included : Bool) :
    (c.chosenAreas (c.entriesFor layerId) included).length =
      (c.selectedAreas layerId included).length := by
  have hchosen : ((c.chosenAreas (c.entriesFor layerId) included).map ChosenArea.id).Nodup := by
    simpa [chosenAreas, Function.comp_def] using @map_distinctBy_nodup _ Area.id _
  have hselected : ((c.selectedAreas layerId included).map Area.id).Nodup :=
    (List.filter_sublist.map Area.id).nodup (Catalog.nodup_map_key c.areas)
  have hsame (id : Text) : id ∈ (c.chosenAreas (c.entriesFor layerId) included).map ChosenArea.id ↔
      id ∈ (c.selectedAreas layerId included).map Area.id := by
    simp only [List.mem_map, mem_chosenAreas]
    constructor
    · rintro ⟨x, ⟨a, ha, rfl⟩, rfl⟩
      exact ⟨a, ha, rfl⟩
    · rintro ⟨a, ha, rfl⟩
      exact ⟨_, ⟨a, ha, rfl⟩, rfl⟩
  simpa using ((List.perm_ext_iff_of_nodup hchosen hselected).2 hsame).length_eq

/-- What an entry gives under the id of an enabled filter. -/
theorem find?_filtersOf {f : NamedFilter} (hf : f ∈ c.filters.items) (henabled : f.enabled = true)
    (kind : Text) (e : Entry) : (c.filtersOf kind e).find? (·.id == f.id) =
      if e.selectsFilter kind f then some f else none := by
  split
  · next hselects =>
    have hmem : f ∈ c.filtersOf kind e := mem_filtersOf.2 ⟨hf, henabled, hselects⟩
    cases hfind : (c.filtersOf kind e).find? (·.id == f.id) with
    | none => simpa using List.find?_eq_none.1 hfind f hmem
    | some g =>
      have hg := (mem_filtersOf.1 (List.mem_of_find?_eq_some hfind)).1
      have hid : g.id = f.id := by simpa using List.find?_some hfind
      rw [Catalog.eq_of_key_eq hg hf hid]
  · next hselects =>
    rw [List.find?_eq_none]
    intro g hg hid
    obtain ⟨hstored, -, hown⟩ := mem_filtersOf.1 hg
    have hid : g.id = f.id := by simpa using hid
    obtain rfl := Catalog.eq_of_key_eq hstored hf hid
    exact hselects hown

theorem find?_flatMap_filtersOf {f : NamedFilter} (hf : f ∈ c.filters.items)
    (henabled : f.enabled = true) (kind : Text) (entries : List Entry) :
    (entries.flatMap fun e => (c.filtersOf kind e).map (·, e.group)).find? (·.1.id == f.id) =
      ((entries.find? (·.selectsFilter kind f)).map Entry.group).map (f, ·) := by
  induction entries with
  | nil => rfl
  | cons e rest ih =>
    have hentry : ((c.filtersOf kind e).map (·, e.group)).find? (·.1.id == f.id) =
        if e.selectsFilter kind f then some (f, e.group) else none := by
      rw [List.find?_map]
      change Option.map _ ((c.filtersOf kind e).find? (·.id == f.id)) = _
      rw [find?_filtersOf hf henabled]
      split <;> rfl
    rw [List.flatMap_cons, List.find?_append, hentry, ih, List.find?_cons]
    cases e.selectsFilter kind f <;> rfl

/-- The filters of a resolution are the selected ones, each with the operator of the first entry
that selects it. -/
theorem mem_chosenFilters {x : NamedFilter × Connective} :
    x ∈ c.chosenFilters layer.kind (c.entriesFor layer.id) ↔
      x.1 ∈ c.selectedFilters layer ∧ c.groupOf? layer x.1 = some x.2 := by
  obtain ⟨f, op⟩ := x
  rw [chosenFilters, mem_distinctBy_iff, mem_selectedFilters]
  constructor
  · intro hfind
    obtain ⟨e, he, hmem⟩ := List.mem_flatMap.1 (List.mem_of_find?_eq_some hfind)
    obtain ⟨g, hg, heq⟩ := List.mem_map.1 hmem
    obtain ⟨rfl, -⟩ := Prod.mk.inj heq
    obtain ⟨hstored, henabled, -⟩ := mem_filtersOf.1 hg
    rw [find?_flatMap_filtersOf hstored henabled] at hfind
    exact ⟨⟨e, he, hg⟩, by simpa [groupOf?] using hfind⟩
  · rintro ⟨⟨e, -, hmem⟩, hgroup⟩
    obtain ⟨hstored, henabled, -⟩ := mem_filtersOf.1 hmem
    rw [find?_flatMap_filtersOf hstored henabled]
    exact congrArg (Option.map (f, ·)) hgroup

theorem exists_groupOf? {f : NamedFilter} (h : f ∈ c.selectedFilters layer) :
    ∃ op, c.groupOf? layer f = some op := by
  obtain ⟨e, he, hmem⟩ := mem_selectedFilters.1 h
  have hfind : ((c.entriesFor layer.id).find? (·.selectsFilter layer.kind f)).isSome = true :=
    List.find?_isSome.2 ⟨e, he, (mem_filtersOf.1 hmem).2.2⟩
  obtain ⟨first, hfirst⟩ := Option.isSome_iff_exists.1 hfind
  exact ⟨first.group, by rw [groupOf?, hfirst]; rfl⟩

/-! ## Without the rest of the content -/

theorem areasOf_pruned (he : e ∈ c.entriesFor layer.id) :
    (c.pruned layer).areasOf e = c.areasOf e := by
  have hkept : ∀ a ∈ c.areasOf e, ((c.selectedAreas layer.id true ++
      c.selectedAreas layer.id false).any (·.id == a.id)) = true := by
    intro a ha
    rw [List.any_append, Bool.or_eq_true, List.any_eq_true, List.any_eq_true]
    have hmem : a ∈ c.selectedAreas layer.id e.includesArea :=
      mem_selectedAreas.2 ⟨e, he, rfl, ha⟩
    cases hincluded : e.includesArea with
    | true => exact .inl ⟨a, hincluded ▸ hmem, by simp⟩
    | false => exact .inr ⟨a, hincluded ▸ hmem, by simp⟩
  simp only [mem_areasOf, and_imp] at hkept
  unfold areasOf
  cases harea : e.area with
  | none => rfl
  | some selector =>
    simp only [Entry.selectsArea, harea, Option.any_some] at hkept
    cases selector with
    | any => exact Catalog.filter_restrict fun a ha hshown => hkept a ha hshown rfl
    | id id =>
      refine Catalog.find?_restrict id fun a ha hid hshown => hkept a ha hshown ?_
      exact beq_iff_eq.2 hid.symm

theorem filtersOf_pruned (he : e ∈ c.entriesFor layer.id) :
    (c.pruned layer).filtersOf layer.kind e = c.filtersOf layer.kind e := by
  have hkept : ∀ f ∈ c.filtersOf layer.kind e,
      (c.selectedFilters layer).any (·.id == f.id) = true := by
    intro f hf
    exact List.any_eq_true.2 ⟨f, mem_selectedFilters.2 ⟨e, he, hf⟩, by simp⟩
  simp only [mem_filtersOf, and_imp] at hkept
  unfold filtersOf
  cases hfilter : e.filter with
  | none => rfl
  | some selector =>
    simp only [Entry.selectsFilter, hfilter] at hkept
    cases selector with
    | any =>
      refine Catalog.filter_restrict fun f hf hkeep => ?_
      rw [Bool.and_eq_true] at hkeep
      exact hkept f hf hkeep.1 hkeep.2
    | id id =>
      refine Catalog.find?_restrict id fun f hf hid henabled => hkept f hf henabled ?_
      exact beq_iff_eq.2 hid.symm

/-- A layer's resolution needs nothing but what the layer's entries select. -/
theorem resolve_pruned (c : Content) (layer : Layer) :
    (c.pruned layer).resolve layer = c.resolve layer := by
  have hentries : (c.pruned layer).entriesFor layer.id = c.entriesFor layer.id :=
    List.filter_eq_self.2 fun e he => (List.mem_filter.1 he).2
  exact resolve_congr hentries (fun _ he => areasOf_pruned he) fun _ he => filtersOf_pruned he

end Content
end MapQuery
