import MapQuery.Workspace.Advisory
import MapQuery.Workspace.Edit

/-!
# Resolution

What the entries of a layer select: shown areas to include and to exclude, and enabled filters,
each once and in the order of the first entry that selects it. References that dangle select
nothing.
-/

set_option autoImplicit false

namespace MapQuery

/-- A layer, and the kind of filters a wildcard selects for it. -/
structure Layer where
  id : Text
  kind : Text
  deriving DecidableEq

/-- An area that a layer's entries select. -/
structure ChosenArea where
  id : Text
  shape : Shape Float

/-- A filter that a layer's entries select, with the operator that joins its nodes. -/
structure ChosenFilter where
  id : Text
  filter : Filter
  group : Connective

/-- What the entries of a layer select. -/
structure Resolution where
  layerId : Text
  included : List ChosenArea
  excluded : List ChosenArea
  filters : List ChosenFilter
  /-- The operator of the first entry. -/
  group? : Option Connective
  advisories : List Advisory

/-- The items with the first of every key. -/
def distinctBy {α : Type} (key : α → Text) : List α → List α
  | [] => []
  | a :: rest => a :: (distinctBy key rest).filter fun b => key b != key a

namespace Content

/-- The shown areas that an entry selects. -/
def areasOf (c : Content) (e : Entry) : List Area :=
  match e.area with
  | none => []
  | some .any => c.areas.items.filter (·.shown)
  | some (.id id) => (c.areas.find? id).toList.filter (·.shown)

/-- The enabled filters that an entry selects for a layer of the given kind; only the wildcard
looks at the kind. -/
def filtersOf (c : Content) (kind : Text) (e : Entry) : List NamedFilter :=
  match e.filter with
  | none => []
  | some .any => c.filters.items.filter fun f => f.enabled && f.kind == kind
  | some (.id id) => (c.filters.find? id).toList.filter (·.enabled)

/-- The areas that entries select, to include or to exclude. -/
def chosenAreas (c : Content) (entries : List Entry) (included : Bool) : List ChosenArea :=
  let areas := (entries.filter (·.includesArea == included)).flatMap c.areasOf
  (distinctBy Area.id areas).map fun a => ⟨a.id, a.shape⟩

/-- The filters that entries select, each with the operator of its first entry. -/
def chosenFilters (c : Content) (kind : Text) (entries : List Entry) :
    List (NamedFilter × Connective) :=
  distinctBy (·.1.id) (entries.flatMap fun e => (c.filtersOf kind e).map (·, e.group))

def resolve (c : Content) (layer : Layer) : Resolution :=
  let entries := c.entriesFor layer.id
  let chosen := c.chosenFilters layer.kind entries
  { layerId := layer.id
    included := c.chosenAreas entries true
    excluded := c.chosenAreas entries false
    filters := chosen.filterMap fun f => f.1.body.toOption.map fun filter =>
      ⟨f.1.id, filter, f.2⟩
    group? := entries.head?.map Entry.group
    advisories := chosen.filterMap fun f =>
      match f.1.body with
      | .ok _ => none
      | .error misfit => some (.malformedFilter f.1.id misfit.message) }

end Content

namespace Resolution

/-- The operator that joins the filters: AND where there is no entry. -/
def group (r : Resolution) : Connective := r.group?.getD .and

/-- The ids of what is selected, as a value. -/
def summary (r : Resolution) : Json.Value :=
  let texts (ts : List Text) : Json.Value := .array (ts.map .string)
  .object [
    ("layer_id", .string r.layerId),
    ("included_areas", texts (r.included.map (·.id))),
    ("excluded_areas", texts (r.excluded.map (·.id))),
    ("filters", texts (r.filters.map (·.id))),
    ("group", match r.group? with
      | none => .null
      | some op => .string op.keyword),
    ("advisories", texts (r.advisories.map Advisory.message))]

end Resolution
end MapQuery
