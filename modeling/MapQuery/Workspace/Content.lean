import MapQuery.Area.Shape
import MapQuery.Filter.Stored
import MapQuery.Workspace.Catalog
import MapQuery.Workspace.Selector

/-!
# The content of a workspace

Areas and filters by id, and the entries that link them to layers. An entry refers to areas and
filters by id alone, so that a reference may dangle.
-/

set_option autoImplicit false

namespace MapQuery

structure Area where
  id : Text
  shape : Shape Float
  shown : Bool

instance : Keyed Area := ⟨Area.id⟩

structure NamedFilter where
  id : Text
  title : Text
  description : Text
  /-- The kind of layers the filter is meant for. -/
  kind : Text
  enabled : Bool
  isDefault : Bool
  /-- The filter, or why its stored form cannot be read. -/
  body : Except Misfit Filter

instance : Keyed NamedFilter := ⟨NamedFilter.id⟩

/-- A link from layers to areas and filters. -/
structure Entry where
  layer : Selector
  area : Option Selector
  filter : Option Selector
  /-- Whether the area is included or excluded. -/
  includesArea : Bool
  /-- Joins the top-level nodes of the filter. -/
  group : Connective
  deriving DecidableEq

namespace Entry

/-- An entry for a layer that links it to nothing yet. -/
def ofLayer (layer : Selector) : Entry := ⟨layer, none, none, true, .and⟩

/-- Whether an entry names a layer, other than by the wildcard. -/
def names (layerId : Text) (e : Entry) : Bool := e.layer == .id layerId

/-- Whether an entry applies to a layer. -/
def appliesTo (layerId : Text) (e : Entry) : Bool := e.layer.covers layerId

end Entry

structure Content where
  areas : Catalog Area
  filters : Catalog NamedFilter
  entries : List Entry

namespace Content

def empty : Content := ⟨.empty, .empty, []⟩

/-- The entries that apply to a layer, in order. -/
def entriesFor (c : Content) (layerId : Text) : List Entry :=
  c.entries.filter (·.appliesTo layerId)

end Content
end MapQuery
