import MapQuery.Proofs.Workspace.Lookup
import MapQuery.Workspace.Resolution

/-!
# Announced changes are enough

Whoever hears of every announced change and judges it by the content of that moment misses no edit
that alters what a layer selects. A reference that made a change matter may be gone by then; but it
went by an edit of entries, and that edit is judged by no content at all.
-/

set_option autoImplicit false

namespace MapQuery.Content

/-! ## What a layer's resolution depends on -/

theorem concerns_congr {c d : Content} {layerId : Text}
    (h : d.entriesFor layerId = c.entriesFor layerId) (change : Change) :
    d.concerns layerId change = c.concerns layerId change := by
  cases change <;> simp only [concerns, h]

theorem resolve_congr {c d : Content} {layer : Layer}
    (hentries : d.entriesFor layer.id = c.entriesFor layer.id)
    (hareas : ∀ e ∈ c.entriesFor layer.id, d.areasOf e = c.areasOf e)
    (hfilters : ∀ e ∈ c.entriesFor layer.id, d.filtersOf layer.kind e = c.filtersOf layer.kind e) :
    d.resolve layer = c.resolve layer := by
  have areas (included : Bool) : d.chosenAreas (c.entriesFor layer.id) included =
      c.chosenAreas (c.entriesFor layer.id) included := by
    unfold chosenAreas
    have h := List.map_congr_left (f := d.areasOf) (g := c.areasOf)
      (l := (c.entriesFor layer.id).filter (·.includesArea == included))
      fun e he => hareas e (List.mem_filter.1 he).1
    simp only [List.flatMap_def, h]
  have filters : d.chosenFilters layer.kind (c.entriesFor layer.id) =
      c.chosenFilters layer.kind (c.entriesFor layer.id) := by
    unfold chosenFilters
    have h := List.map_congr_left (f := fun e => (d.filtersOf layer.kind e).map (·, e.group))
      (g := fun e => (c.filtersOf layer.kind e).map (·, e.group))
      (l := c.entriesFor layer.id) fun e he => by simp only [hfilters e he]
    simp only [List.flatMap_def, h]
  simp only [resolve, hentries, areas, filters]

theorem areasOf_eq_of_find? {c d : Content} {e : Entry} {id : Text}
    (hfind : ∀ own, own ≠ id → d.areas.find? own = c.areas.find? own)
    (h : e.area.any (·.covers id) = false) : d.areasOf e = c.areasOf e := by
  unfold areasOf
  cases harea : e.area with
  | none => rfl
  | some selector =>
    cases selector with
    | any => simp [harea, Selector.covers] at h
    | id own =>
      have hne : own ≠ id := by simpa [harea, Selector.covers] using h
      simp only [hfind own hne]

theorem filtersOf_eq_of_find? {c d : Content} {e : Entry} {id kind : Text}
    (hfind : ∀ own, own ≠ id → d.filters.find? own = c.filters.find? own)
    (h : e.filter.any (·.covers id) = false) : d.filtersOf kind e = c.filtersOf kind e := by
  unfold filtersOf
  cases hfilter : e.filter with
  | none => rfl
  | some selector =>
    cases selector with
    | any => simp [hfilter, Selector.covers] at h
    | id own =>
      have hne : own ≠ id := by simpa [hfilter, Selector.covers] using h
      simp only [hfind own hne]

/-- Other areas cannot matter to a layer whose entries do not refer to them. -/
theorem resolve_areas {c : Content} {areas : Catalog Area} {layer : Layer} {id : Text}
    (hfind : ∀ own, own ≠ id → areas.find? own = c.areas.find? own)
    (h : c.concerns layer.id (.areaChanged id) = false) :
    Content.resolve { c with areas := areas } layer = c.resolve layer := by
  have huncovered : ∀ e ∈ c.entriesFor layer.id, e.area.any (·.covers id) = false := by
    simpa [concerns] using h
  refine resolve_congr (c := c) rfl ?_ fun _ _ => rfl
  intro e he
  exact areasOf_eq_of_find? hfind (huncovered e he)

/-- Other filters cannot matter to a layer whose entries do not refer to them. -/
theorem resolve_filters {c : Content} {filters : Catalog NamedFilter} {layer : Layer} {id : Text}
    (hfind : ∀ own, own ≠ id → filters.find? own = c.filters.find? own)
    (h : c.concerns layer.id (.filterChanged id) = false) :
    Content.resolve { c with filters := filters } layer = c.resolve layer := by
  have huncovered : ∀ e ∈ c.entriesFor layer.id, e.filter.any (·.covers id) = false := by
    simpa [concerns] using h
  refine resolve_congr (c := c) rfl (fun _ _ => rfl) ?_
  intro e he
  exact filtersOf_eq_of_find? hfind (huncovered e he)

/-- Areas and filters being the same, only the layer's own entries matter. -/
theorem resolve_entries {c : Content} {entries : List Entry} {layer : Layer}
    (h : entries.filter (·.appliesTo layer.id) = c.entriesFor layer.id) :
    Content.resolve { c with entries := entries } layer = c.resolve layer :=
  resolve_congr h (fun _ _ => rfl) fun _ _ => rfl

/-! ## One edit -/

theorem filter_erase_of_neg {p : Entry → Bool} {e : Entry} (h : p e = false)
    (entries : List Entry) : (entries.erase e).filter p = entries.filter p := by
  rw [← List.erase_filter]
  apply List.erase_of_not_mem
  simp [h]

theorem filter_replace_of_neg {p : Entry → Bool} {e e' : Entry} (h : p e = false)
    (h' : p e' = false) (entries : List Entry) :
    (entries.replace e e').filter p = entries.filter p := by
  induction entries with
  | nil => rfl
  | cons x rest ih =>
    rw [List.replace_cons]
    split
    · next hx =>
      obtain rfl : e = x := by simpa using hx
      simp [h, h']
    · simp only [List.filter_cons, ih]

theorem filter_not_names {id layerId : Text} (h : id ≠ layerId) (entries : List Entry) :
    (entries.filter fun e => !e.names id).filter (·.appliesTo layerId) =
      entries.filter (·.appliesTo layerId) := by
  rw [List.filter_filter]
  apply List.filter_congr
  intro e _
  cases hl : e.layer with
  | any => simp [Entry.names, Entry.appliesTo, Selector.covers, hl]
  | id own =>
    by_cases hown : own = layerId
    · simp [Entry.names, Entry.appliesTo, Selector.covers, hl, hown, Ne.symm h]
    · simp [Entry.names, Entry.appliesTo, Selector.covers, hl, hown]

/-- An edit that alters the entries of a layer announces a change which concerns it whatever the
content is. -/
theorem entriesFor_edit (c : Content) (e : Edit) (layerId : Text) :
    (c.edit e).entriesFor layerId = c.entriesFor layerId ∨
      ∃ change, c.announced e = some change ∧ ∀ d : Content, d.concerns layerId change = true := by
  cases e with
  | putArea | dropArea | showArea | putFilter | dropFilter | enableFilter => exact .inl rfl
  | addEntry entry =>
    cases h : entry.layer.covers layerId with
    | true => exact .inr ⟨_, rfl, fun _ => h⟩
    | false =>
      left
      simp [edit, entriesFor, List.filter_append, Entry.appliesTo, h]
  | dropEntry entry =>
    by_cases hmem : entry ∈ c.entries
    · cases h : entry.layer.covers layerId with
      | true => exact .inr ⟨.entryRemoved entry.layer, by simp [announced, hmem], fun _ => h⟩
      | false => exact .inl (filter_erase_of_neg h c.entries)
    · left
      simp [edit, entriesFor, List.erase_of_not_mem hmem]
  | toggleEntry entry =>
    by_cases hmem : entry ∈ c.entries
    · cases h : entry.layer.covers layerId with
      | true => exact .inr ⟨.entryAdded entry.layer, by simp [announced, hmem], fun _ => h⟩
      | false => exact .inl (filter_replace_of_neg h h c.entries)
    · left
      simp [edit, entriesFor, List.replace_of_not_mem hmem]
  | dropLayer id =>
    by_cases h : id = layerId
    · exact .inr ⟨_, rfl, fun _ => by simp [concerns, h]⟩
    · exact .inl (filter_not_names h c.entries)

/-- An edit that announces nothing does nothing. -/
theorem edit_eq_self {c : Content} {e : Edit} (h : c.announced e = none) : c.edit e = c := by
  cases e with
  | putArea | putFilter | addEntry | dropLayer => simp [announced] at h
  | dropArea id =>
    have hfind : c.areas.find? id = none := by simpa [announced] using h
    simp only [edit, Catalog.erase_of_find?_eq_none hfind]
  | dropFilter id =>
    have hfind : c.filters.find? id = none := by simpa [announced] using h
    simp only [edit, Catalog.erase_of_find?_eq_none hfind]
  | showArea id shown =>
    have hfind : ∀ a, c.areas.find? id = some a → a.shown = shown := by
      simpa [announced, Option.any_eq_false] using h
    simp only [edit]
    rw [Catalog.update_eq_self]
    intro a ha
    rw [← hfind a ha]
  | enableFilter id enabled =>
    have hfind : ∀ f, c.filters.find? id = some f → f.enabled = enabled := by
      simpa [announced, Option.any_eq_false] using h
    simp only [edit]
    rw [Catalog.update_eq_self]
    intro f hf
    rw [← hfind f hf]
  | dropEntry entry =>
    have hmem : entry ∉ c.entries := by simpa [announced] using h
    simp only [edit, List.erase_of_not_mem hmem]
  | toggleEntry entry =>
    have hmem : entry ∉ c.entries := by simpa [announced] using h
    simp only [edit, List.replace_of_not_mem hmem]

/-- An edit whose announcement does not concern a layer, judged afterwards, leaves its
resolution. -/
theorem resolve_edit {c : Content} {e : Edit} {layer : Layer}
    (h : ∀ change, c.announced e = some change → (c.edit e).concerns layer.id change = false) :
    (c.edit e).resolve layer = c.resolve layer := by
  have hentries : (c.edit e).entriesFor layer.id = c.entriesFor layer.id := by
    rcases entriesFor_edit c e layer.id with hentries | ⟨change, hchange, hconcerns⟩
    · exact hentries
    · have := h change hchange
      rw [hconcerns] at this
      exact absurd this (by decide)
  cases hannounced : c.announced e with
  | none => rw [edit_eq_self hannounced]
  | some change =>
    have hchange := h change hannounced
    rw [concerns_congr hentries] at hchange
    cases e with
    | putArea area =>
      obtain rfl : Change.areaChanged area.id = change := by simpa [announced] using hannounced
      apply resolve_areas _ hchange
      intro own hown
      exact Catalog.find?_insert_of_ne _ hown
    | dropArea id =>
      obtain ⟨-, rfl⟩ : _ ∧ Change.areaChanged id = change := by
        simpa [announced] using hannounced
      apply resolve_areas _ hchange
      intro own hown
      exact Catalog.find?_erase_of_ne _ hown
    | showArea id shown =>
      obtain ⟨-, rfl⟩ : _ ∧ Change.areaChanged id = change := by
        simpa [announced] using hannounced
      apply resolve_areas _ hchange
      intro own hown
      exact Catalog.find?_update_of_ne _ _ _ hown
    | putFilter filter =>
      obtain rfl : Change.filterChanged filter.id = change := by simpa [announced] using hannounced
      apply resolve_filters _ hchange
      intro own hown
      exact Catalog.find?_insert_of_ne _ hown
    | dropFilter id =>
      obtain ⟨-, rfl⟩ : _ ∧ Change.filterChanged id = change := by
        simpa [announced] using hannounced
      apply resolve_filters _ hchange
      intro own hown
      exact Catalog.find?_erase_of_ne _ hown
    | enableFilter id enabled =>
      obtain ⟨-, rfl⟩ : _ ∧ Change.filterChanged id = change := by
        simpa [announced] using hannounced
      apply resolve_filters _ hchange
      intro own hown
      exact Catalog.find?_update_of_ne _ _ _ hown
    | addEntry | dropEntry | toggleEntry | dropLayer => exact resolve_entries hentries

/-! ## Any number of edits -/

def editAll (c : Content) (edits : List Edit) : Content := edits.foldl edit c

def announcements (c : Content) : List Edit → List Change
  | [] => []
  | e :: rest => (c.announced e).toList ++ (c.edit e).announcements rest

@[simp] theorem editAll_cons (c : Content) (e : Edit) (edits : List Edit) :
    c.editAll (e :: edits) = (c.edit e).editAll edits := rfl

theorem mem_announcements_cons {c : Content} {e : Edit} {edits : List Edit} {change : Change} :
    change ∈ c.announcements (e :: edits) ↔
      c.announced e = some change ∨ change ∈ (c.edit e).announcements edits := by
  simp [announcements]

/-- Edits of which no announcement concerns a layer, judged at their end, leave its entries and its
resolution. -/
theorem resolve_editAll (edits : List Edit) (c : Content) (layer : Layer)
    (h : ∀ change ∈ c.announcements edits, (c.editAll edits).concerns layer.id change = false) :
    (c.editAll edits).entriesFor layer.id = c.entriesFor layer.id ∧
      (c.editAll edits).resolve layer = c.resolve layer := by
  induction edits generalizing c with
  | nil => exact ⟨rfl, rfl⟩
  | cons e rest ih =>
    simp only [editAll_cons, mem_announcements_cons] at h ⊢
    obtain ⟨hentries, hresolve⟩ := ih (c.edit e) fun change hc => h change (.inr hc)
    -- the rest kept the layer's entries, so the end judges the first change as its own moment does
    have hjudged : ∀ change, c.announced e = some change →
        (c.edit e).concerns layer.id change = false := by
      intro change hc
      rw [← concerns_congr hentries]
      exact h change (.inl hc)
    refine ⟨?_, hresolve.trans (resolve_edit hjudged)⟩
    rcases entriesFor_edit c e layer.id with hfirst | ⟨change, hc, hconcerns⟩
    · exact hentries.trans hfirst
    · have := hjudged change hc
      rw [hconcerns] at this
      exact absurd this (by decide)

/-- If the resolution of a layer differs after some edits, one of the announced changes concerns the
layer by the content at their end; and an edit without announcement does nothing. -/
theorem announcements_complete (c : Content) (edits : List Edit) (layer : Layer) :
    ((c.editAll edits).resolve layer ≠ c.resolve layer →
      ∃ change ∈ c.announcements edits, (c.editAll edits).concerns layer.id change = true) ∧
    ∀ e, c.announced e = none → c.edit e = c := by
  constructor
  · intro hne
    by_cases h : ∃ change ∈ c.announcements edits, (c.editAll edits).concerns layer.id change = true
    · exact h
    · have hnone : ∀ change ∈ c.announcements edits,
          (c.editAll edits).concerns layer.id change = false := by
        intro change hc
        cases hconcerns : (c.editAll edits).concerns layer.id change with
        | false => rfl
        | true => exact absurd ⟨change, hc, hconcerns⟩ h
      exact absurd (resolve_editAll edits c layer hnone).2 hne
  · intro e
    exact edit_eq_self

/-- A filter goes, and then the entry that referred to it: the filter's change no longer concerns
the layer, the entry's does. -/
theorem announcements_complete_of_lost_reference :
    let layer : Layer := ⟨"L", "wfs"⟩
    let entry : Entry := { Entry.ofLayer (.id "L") with filter := some (.id "F") }
    let c := empty.editAll [
      .putFilter ⟨"F", "", "", "wfs", true, false, .ok ⟨[]⟩⟩, .addEntry entry]
    let edits := [.dropFilter "F", .dropEntry entry]
    (c.editAll edits).resolve layer ≠ c.resolve layer ∧
      (c.editAll edits).concerns "L" (.filterChanged "F") = false ∧
      ∃ change ∈ c.announcements edits, (c.editAll edits).concerns "L" change = true := by
  intro layer entry c edits
  have hne : (c.editAll edits).resolve layer ≠ c.resolve layer := by
    intro h
    have hlength := congrArg (fun r => r.filters.length) h
    revert hlength
    decide
  exact ⟨hne, by decide, (announcements_complete c edits layer).1 hne⟩

end MapQuery.Content
