import MapQuery.Proofs.Workspace.Firsts
import MapQuery.Proofs.Workspace.Saving
import MapQuery.Request.Compiled

/-!
# What survives saving and loading

A workspace that has been saved and loaded selects the same for every layer and compiles to the
same requests. Only the reasons why filters are malformed are worded anew.
-/

set_option autoImplicit false

namespace MapQuery

/-! ## Resolutions -/

/-- The advisory with another reason why a filter is malformed. -/
def Advisory.reworded (reason : Text) : Advisory → Advisory
  | .malformedFilter id _ => .malformedFilter id reason
  | a => a

/-- The advisory without the reason why a filter is malformed. -/
def Advisory.withoutReason (a : Advisory) : Advisory := a.reworded []

theorem Advisory.withoutReason_reworded (a : Advisory) (reason : Text) :
    (a.reworded reason).withoutReason = a.withoutReason := by
  cases a <;> rfl

def ChosenFilter.reloaded (f : ChosenFilter) : ChosenFilter :=
  { f with filter := f.filter.reloaded }

/-- The resolution of content that has come back from its document. -/
def Resolution.reloaded (r : Resolution) : Resolution :=
  { r with
    filters := r.filters.map ChosenFilter.reloaded
    advisories := r.advisories.map (Advisory.reworded Misfit.ofUnreadable.message) }

theorem distinctBy_map {α β : Type} {key : α → Text} {key' : β → Text} {f : α → β}
    (h : ∀ a, key' (f a) = key a) (l : List α) :
    distinctBy key' (l.map f) = (distinctBy key l).map f := by
  induction l with
  | nil => rfl
  | cons a rest ih =>
    simp only [List.map_cons, distinctBy, ih, List.filter_map, Function.comp_def, h]

namespace Content

variable (c : Content)

theorem filtersOf_reloaded (kind : Text) (e : Entry) :
    c.reloaded.filtersOf kind e = (c.filtersOf kind e).map NamedFilter.reloaded := by
  unfold filtersOf
  cases e.filter with
  | none => rfl
  | some selector =>
    cases selector with
    | any =>
      simp only [reloaded, Catalog.map, List.filter_map]
      rfl
    | id own =>
      have hfind : c.reloaded.filters.find? own = (c.filters.find? own).map NamedFilter.reloaded :=
        Catalog.find?_map NamedFilter.reloaded (fun _ => rfl) c.filters own
      simp only [hfind]
      cases c.filters.find? own with
      | none => rfl
      | some f => cases h : f.enabled <;> simp [NamedFilter.reloaded, h]

theorem chosenFilters_reloaded (kind : Text) (entries : List Entry) :
    c.reloaded.chosenFilters kind entries =
      (c.chosenFilters kind entries).map fun f => (f.1.reloaded, f.2) := by
  have hentries : entries.map (fun e => (c.reloaded.filtersOf kind e).map (·, e.group)) =
      entries.map fun e => ((c.filtersOf kind e).map (·, e.group)).map fun f =>
        (f.1.reloaded, f.2) := by
    refine List.map_congr_left fun e _ => ?_
    rw [filtersOf_reloaded, List.map_map, List.map_map]
    rfl
  unfold chosenFilters
  rw [List.flatMap_def, hentries, ← List.flatMap_def, ← List.map_flatMap]
  exact distinctBy_map (fun _ => rfl) _

theorem resolve_reloaded (layer : Layer) :
    c.reloaded.resolve layer = (c.resolve layer).reloaded := by
  have hentries : c.reloaded.entriesFor layer.id = c.entriesFor layer.id := rfl
  have hchosen := c.chosenFilters_reloaded layer.kind (c.entriesFor layer.id)
  simp only [resolve, Resolution.reloaded, hentries, hchosen, List.filterMap_map,
    List.map_filterMap]
  congr 1
  · congr 1
    funext chosen
    obtain ⟨⟨id, title, description, kind, enabled, isDefault, body⟩, op⟩ := chosen
    cases body <;> rfl
  · congr 1
    funext chosen
    obtain ⟨⟨id, title, description, kind, enabled, isDefault, body⟩, op⟩ := chosen
    cases body <;> rfl

end Content

/-! ## Compiled queries -/

namespace Resolution

variable (d : Dialect) (o : CompileOptions) (r : Resolution)

theorem spatial_reloaded : (d.grammar o).spatial r.reloaded = (d.grammar o).spatial r := by
  cases d <;> rfl

theorem isStandaloneSelection_reloaded (f : Filter) :
    r.reloaded.isStandaloneSelection f.reloaded = r.isStandaloneSelection f := by
  simp only [isStandaloneSelection, reloaded, List.length_map, f.isIdSelection_reloaded]

end Resolution

namespace ChosenFilter

variable (g : Grammar) (columns : Option Columns) (r : Resolution) (f : ChosenFilter)

theorem refusal?_reloaded : f.reloaded.refusal? g columns r.reloaded = f.refusal? g columns r := by
  simp only [refusal?, reloaded, Columns.firstFault?, f.filter.columns_reloaded,
    f.filter.selectsIds_reloaded, r.isStandaloneSelection_reloaded]

theorem contribution_reloaded :
    (f.reloaded.contribution g columns r.reloaded).1 = (f.contribution g columns r).1 ∧
      (f.reloaded.contribution g columns r.reloaded).2.map Advisory.withoutReason =
        (f.contribution g columns r).2.map Advisory.withoutReason := by
  unfold contribution
  rw [refusal?_reloaded]
  cases f.refusal? g columns r with
  | some advisory => exact ⟨rfl, rfl⟩
  | none =>
    have htext := g.fragment_reloaded f.group f.filter
    have hmalformed := f.filter.malformation?_reloaded
    refine ⟨htext, ?_⟩
    simp only [reloaded, htext, hmalformed, List.map_append]
    cases f.filter.malformation? <;> rfl

end ChosenFilter

theorem compileQuery_reloaded (d : Dialect) (o : CompileOptions) (r : Resolution) :
    (compileQuery d o r.reloaded).filter = (compileQuery d o r).filter ∧
      (compileQuery d o r.reloaded).params = (compileQuery d o r).params ∧
      (compileQuery d o r.reloaded).advisories.map Advisory.withoutReason =
        (compileQuery d o r).advisories.map Advisory.withoutReason := by
  have hgroup : r.reloaded.group = r.group := rfl
  have hspatial := r.spatial_reloaded d o
  have htexts : r.reloaded.filters.map (fun f =>
        (f.contribution (d.grammar o) o.columns r.reloaded).1) =
      r.filters.map fun f => (f.contribution (d.grammar o) o.columns r).1 := by
    simp only [Resolution.reloaded, List.map_map]
    exact List.map_congr_left fun f _ =>
      (f.contribution_reloaded (d.grammar o) o.columns r).1
  have hadvisories : r.reloaded.filters.map (fun f =>
        (f.contribution (d.grammar o) o.columns r.reloaded).2.map Advisory.withoutReason) =
      r.filters.map fun f =>
        (f.contribution (d.grammar o) o.columns r).2.map Advisory.withoutReason := by
    simp only [Resolution.reloaded, List.map_map]
    exact List.map_congr_left fun f _ =>
      (f.contribution_reloaded (d.grammar o) o.columns r).2
  have hown : r.reloaded.advisories.map Advisory.withoutReason =
      r.advisories.map Advisory.withoutReason := by
    simp only [Resolution.reloaded, List.map_map]
    exact List.map_congr_left fun a _ => a.withoutReason_reworded _
  refine ⟨?_, ?_, ?_⟩
  · simp only [compileQuery, List.map_map, Function.comp_def, htexts, hspatial, hgroup]
  · simp only [compileQuery, hspatial]
  · simp only [compileQuery, List.map_append, hown, hspatial, List.flatMap_def, List.map_flatten,
      List.map_map, Function.comp_def, hadvisories]

/-! ## Workspaces -/

/-- What is said of a filter beside its tree. -/
structure FilterSummary where
  id : Text
  title : Text
  description : Text
  kind : Text
  enabled : Bool
  isDefault : Bool

def NamedFilter.summary (f : NamedFilter) : FilterSummary :=
  ⟨f.id, f.title, f.description, f.kind, f.enabled, f.isDefault⟩

/-- Whether two resolutions select the same areas and the same filters in the same way. -/
structure Resolution.SelectsAs (r' r : Resolution) : Prop where
  included : r'.included = r.included
  excluded : r'.excluded = r.excluded
  filters : r'.filters.map (fun f => (f.id, f.group)) = r.filters.map fun f => (f.id, f.group)
  group? : r'.group? = r.group?

/-- Whether two compiled queries make the same request and tell of the same, whatever reasons they
give. -/
structure CompiledQuery.RequestsAs (q' q : CompiledQuery) : Prop where
  filter : q'.filter = q.filter
  params : q'.params = q.params
  advisories : q'.advisories.map Advisory.withoutReason = q.advisories.map Advisory.withoutReason

/-- Whether a workspace holds what another one holds, and its layers are queried alike. -/
structure Content.HoldsAs (c' c : Content) : Prop where
  areas : c'.areas = c.areas
  entries : c'.entries = c.entries
  filters : c'.filters.items.map NamedFilter.summary = c.filters.items.map NamedFilter.summary
  resolved : ∀ layer, (c'.resolve layer).SelectsAs (c.resolve layer)
  compiled : ∀ d o layer,
    (compileQuery d o (c'.resolve layer)).RequestsAs (compileQuery d o (c.resolve layer))

theorem Content.reloaded_holdsAs (c : Content) : c.reloaded.HoldsAs c where
  areas := rfl
  entries := rfl
  filters := by
    simp only [reloaded, Catalog.map, List.map_map]
    rfl
  resolved layer := by
    rw [c.resolve_reloaded]
    exact ⟨rfl, rfl, List.map_map, rfl⟩
  compiled d o layer := by
    rw [c.resolve_reloaded]
    obtain ⟨hfilter, hparams, hadvisories⟩ := compileQuery_reloaded d o (c.resolve layer)
    exact ⟨hfilter, hparams, hadvisories⟩

/-- A workspace loaded from a document and edited survives saving and loading, and what comes back
is saved in the same way. -/
theorem Document.edited_survives (d : Document) {edits : List Edit}
    (hedits : ∀ e ∈ edits, e.IsStored)
    (hnumbers : ∀ n ∈ (ofContent (d.content.editAll edits)).toValue.numbers, n.ReadsBack)
    (hdepth : (ofContent (d.content.editAll edits)).toValue.depth ≤ Json.Source.depthLimit) :
    ∃ saved, ofText? (ofContent (d.content.editAll edits)).toValue.compact = .ok saved ∧
      saved.content.HoldsAs (d.content.editAll edits) ∧
      ofContent saved.content = ofContent (d.content.editAll edits) := by
  have hreadable := Content.isReadable_editAll hedits d.isReadable_content
  refine ⟨_, ofText?_compact hnumbers hdepth, ?_, ?_⟩
  · rw [content_ofContent hreadable]
    exact Content.reloaded_holdsAs _
  · rw [content_ofContent hreadable]
    exact ofContent_reloaded _

/-- A workspace with a malformed filter, an unreadable one and entries that are passed over. -/
def Document.ofReefs : Document where
  areas := [⟨"bay", .polygon [[(0, 0), (2.5, 0), (2.5, 1.5)]], true⟩]
  filters := [
    { id := "deep", entryType := "wms", filter := .array [
        .object [("type", .string "PropertyIsGreaterThan"), ("PropertyName", .string "depth"),
          ("Literal", .number (.int 20))],
        .object [("type", .string "Not")]] },
    { id := "odd", title := "Odd", entryType := "wms", filter := .string "depth > 20" }]
  entries := [
    { layerId := " * ", areaId := "bay", filterId := "*" },
    { layerId := "reefs", filterGroup := .text "FALSE" },
    { layerId := "reefs", includeArea := .text "maybe" },
    { areaId := "bay" }]

/-- Edits of its entries and filters. -/
def Edit.someOfReefs : List Edit := [
  .putFilter (FilterRecord.named { id := "named", entryType := "wms", filter := .object [
      ("type", .string "PropertyIsLike"), ("PropertyName", .string "name"),
      ("Literal", .string "Gr*")] }),
  .toggleEntry ⟨.any, some (.id "bay"), some .any, true, .and⟩,
  .enableFilter "odd" false]

theorem Document.edited_survives_of_reefs :
    ∃ saved, ofText? (ofContent (ofReefs.content.editAll Edit.someOfReefs)).toValue.compact =
        .ok saved ∧
      saved.content.HoldsAs (ofReefs.content.editAll Edit.someOfReefs) ∧
      ofContent saved.content = ofContent (ofReefs.content.editAll Edit.someOfReefs) := by
  have hedits : ∀ e ∈ Edit.someOfReefs, e.IsStored := by
    intro e he
    simp only [Edit.someOfReefs, List.mem_cons, List.not_mem_nil, or_false] at he
    rcases he with rfl | rfl | rfl
    · exact ⟨_, rfl⟩
    · trivial
    · trivial
  have hnumbers : (ofContent (ofReefs.content.editAll Edit.someOfReefs)).toValue.numbers =
      [0, 0, 2.5, 0, 2.5, 1.5, 20].map .real := rfl
  have hreads : ∀ n ∈ [0, 0, 2.5, 0, 2.5, 1.5, 20].map Json.Number.real, n.ReadsBack := by
    intro n hn
    simp only [List.map_cons, List.map_nil, List.mem_cons, List.not_mem_nil, or_false] at hn
    rcases hn with rfl | rfl | rfl | rfl | rfl | rfl | rfl <;> rfl
  exact edited_survives ofReefs hedits (hnumbers ▸ hreads) (by decide)

end MapQuery
