import MapQuery.Workspace.Content

/-!
# Edits and the changes they announce

Every edit that alters the content announces one change. A layer is concerned by changes of its
entries and of the areas and filters that its entries refer to.
-/

set_option autoImplicit false

namespace MapQuery

/-- An announced change. -/
inductive Change where
  | entryAdded (layer : Selector)
  | entryRemoved (layer : Selector)
  | areaChanged (id : Text)
  | filterChanged (id : Text)
  | layerRemoved (id : Text)
  deriving DecidableEq

inductive Edit where
  /-- Adds or replaces an area. -/
  | putArea (area : Area)
  /-- Takes out an area; entries that refer to it stay. -/
  | dropArea (id : Text)
  | showArea (id : Text) (shown : Bool)
  /-- Adds or replaces a filter. -/
  | putFilter (filter : NamedFilter)
  /-- Takes out a filter; entries that refer to it stay. -/
  | dropFilter (id : Text)
  | enableFilter (id : Text) (enabled : Bool)
  | addEntry (entry : Entry)
  /-- Takes out the first entry equal to the given one. -/
  | dropEntry (entry : Entry)
  /-- Turns inclusion into exclusion, or back, in the first entry equal to the given one. -/
  | toggleEntry (entry : Entry)
  /-- Takes out every entry that names a layer. -/
  | dropLayer (id : Text)

/-- The entry with inclusion and exclusion of its area exchanged. -/
def Entry.toggled (e : Entry) : Entry := { e with includesArea := !e.includesArea }

namespace Content

def edit (c : Content) : Edit → Content
  | .putArea area => { c with areas := c.areas.insert area }
  | .dropArea id => { c with areas := c.areas.erase id }
  | .showArea id shown =>
    { c with areas := c.areas.update id (fun a => { a with shown := shown }) fun _ => rfl }
  | .putFilter filter => { c with filters := c.filters.insert filter }
  | .dropFilter id => { c with filters := c.filters.erase id }
  | .enableFilter id enabled =>
    { c with filters := c.filters.update id (fun f => { f with enabled := enabled }) fun _ => rfl }
  | .addEntry entry => { c with entries := c.entries ++ [entry] }
  | .dropEntry entry => { c with entries := c.entries.erase entry }
  | .toggleEntry entry => { c with entries := c.entries.replace entry entry.toggled }
  | .dropLayer id => { c with entries := c.entries.filter fun e => !e.names id }

/-- The change that an edit announces; there is none if the content stays as it is. Removing a
layer is always announced. -/
def announced (c : Content) : Edit → Option Change
  | .putArea area => some (.areaChanged area.id)
  | .dropArea id => if (c.areas.find? id).isSome then some (.areaChanged id) else none
  | .showArea id shown =>
    if (c.areas.find? id).any (·.shown != shown) then some (.areaChanged id) else none
  | .putFilter filter => some (.filterChanged filter.id)
  | .dropFilter id => if (c.filters.find? id).isSome then some (.filterChanged id) else none
  | .enableFilter id enabled =>
    if (c.filters.find? id).any (·.enabled != enabled) then some (.filterChanged id) else none
  | .addEntry entry => some (.entryAdded entry.layer)
  | .dropEntry entry => if entry ∈ c.entries then some (.entryRemoved entry.layer) else none
  | .toggleEntry entry => if entry ∈ c.entries then some (.entryAdded entry.layer) else none
  | .dropLayer id => some (.layerRemoved id)

/-- Whether a change can matter to a layer, judged by the content as it is now. -/
def concerns (c : Content) (layerId : Text) : Change → Bool
  | .entryAdded layer | .entryRemoved layer => layer.covers layerId
  | .areaChanged id => (c.entriesFor layerId).any fun e => e.area.any (·.covers id)
  | .filterChanged id => (c.entriesFor layerId).any fun e => e.filter.any (·.covers id)
  | .layerRemoved id => id == layerId

end Content
end MapQuery
