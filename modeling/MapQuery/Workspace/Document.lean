import MapQuery.Workspace.Edit

/-!
# Workspace documents

The saved form of a workspace: three lists of records. Flags of entries are truth values or their
words. An entry record is passed over if it is negated, if one of its flags cannot be read, or if
it names no layer.
-/

set_option autoImplicit false

namespace MapQuery

open Json (Fault Field Reader Source Value field)

/-- A truth value, or a word that may spell one. -/
inductive Flag where
  | bool (value : Bool)
  | text (value : Text)

namespace Flag

/-- The truth value of a flag, in any ASCII case. -/
def truth? : Flag → Option Bool
  | .bool b => some b
  | .text t =>
    if Text.sameLetters t "true" then some true
    else if Text.sameLetters t "false" then some false
    else none

def spelled (b : Bool) : Flag := .text (Text.truth b)

/-- Reads a flag nested at most `budget` deep. -/
def read (budget : Nat) : Reader Flag := fun s => do
  match ← s.value budget with
  | .bool b => .ok (.bool b)
  | .string t => .ok (.text t)
  | _ => .error .shape

def toValue : Flag → Value
  | .bool b => .bool b
  | .text t => .string t

end Flag

/-- The saved form of an entry. -/
structure EntryRecord where
  layerId : Text := []
  areaId : Text := []
  filterId : Text := []
  includeArea : Flag := .spelled true
  filterGroup : Flag := .spelled true
  /-- Marks a disabled record of old. -/
  negate : Option Flag := none

namespace EntryRecord

/-- Reads a record whose flags are nested at most `budget` deep. -/
def read (budget : Nat) : Reader EntryRecord :=
  let optionalFlag : Reader (Option Flag)
    | .null => .ok none
    | s => (Flag.read budget s).map some
  Source.record [
    field "layerId" Source.text (fun t r => { r with layerId := t }) false,
    field "areaId" Source.text (fun t r => { r with areaId := t }) true,
    field "filterId" Source.text (fun t r => { r with filterId := t }) true,
    field "includeArea" (Flag.read budget) (fun f r => { r with includeArea := f }) true,
    field "filterGroup" (Flag.read budget) (fun f r => { r with filterGroup := f }) true,
    field "negate" optionalFlag (fun f r => { r with negate := f }) true] {}

/-- The entry of a record, if it is not passed over. -/
def entry? (r : EntryRecord) : Option Entry := do
  let negated ← match r.negate with
    | none => some false
    | some flag => flag.truth?
  if negated then none
  else
    let layer ← Selector.ofText? r.layerId
    let includesArea ← r.includeArea.truth?
    let conjunction ← r.filterGroup.truth?
    some ⟨layer, Selector.ofText? r.areaId, Selector.ofText? r.filterId, includesArea,
      Connective.ofFlag conjunction⟩

/-- The text of a selector; none is empty. -/
def selectorText : Option Selector → Text
  | none => []
  | some s => s.text

def ofEntry (e : Entry) : EntryRecord :=
  ⟨e.layer.text, selectorText e.area, selectorText e.filter, .spelled e.includesArea,
    .spelled (e.group == .and), none⟩

def toValue (r : EntryRecord) : Value :=
  let negate : List (Text × Value) :=
    match r.negate with
    | none => []
    | some flag => [("negate", flag.toValue)]
  .object (("layerId", .string r.layerId) :: ("areaId", .string r.areaId) ::
    ("filterId", .string r.filterId) :: ("includeArea", r.includeArea.toValue) ::
    ("filterGroup", r.filterGroup.toValue) :: negate)

end EntryRecord

/-- The saved form of a filter. -/
structure FilterRecord where
  id : Text := []
  title : Text := []
  description : Text := []
  entryType : Text := []
  enabled : Bool := true
  isDefault : Bool := false
  filter : Value := .null

namespace FilterRecord

/-- Reads a record whose filter is nested at most `budget` deep. -/
def read (budget : Nat) : Reader FilterRecord :=
  Source.record [
    field "id" Source.text (fun t r => { r with id := t }) false,
    field "title" Source.text (fun t r => { r with title := t }) true,
    field "description" Source.text (fun t r => { r with description := t }) true,
    field "entryType" Source.text (fun t r => { r with entryType := t }) false,
    field "enabled" Source.truth (fun b r => { r with enabled := b }) true,
    field "isDefault" Source.truth (fun b r => { r with isDefault := b }) true,
    field "filter" (Source.value budget) (fun v r => { r with filter := v }) false] {}

/-- The filter of a record. An unreadable tree leaves a filter without an expression; a filter
without a title is titled by its id. -/
def named (r : FilterRecord) : NamedFilter :=
  ⟨r.id, if r.title.isEmpty then r.id else r.title, r.description, r.entryType, r.enabled,
    r.isDefault, Filter.ofValue r.filter⟩

/-- The record of a filter; an unreadable tree is saved as null. -/
def ofNamed (f : NamedFilter) : FilterRecord :=
  ⟨f.id, f.title, f.description, f.kind, f.enabled, f.isDefault,
    match f.body with
    | .ok filter => filter.toValue.normal
    | .error _ => .null⟩

def toValue (r : FilterRecord) : Value := .object [
  ("id", .string r.id), ("title", .string r.title), ("description", .string r.description),
  ("entryType", .string r.entryType), ("enabled", .bool r.enabled),
  ("isDefault", .bool r.isDefault), ("filter", r.filter)]

end FilterRecord

namespace Area

/-- Reads an area whose coordinates are nested at most `budget` deep. -/
def read (budget : Nat) : Reader Area :=
  Source.record [
    field "id" Source.text (fun t a => { a with id := t }) false,
    field "geometry" (Shape.read budget) (fun s a => { a with shape := s }) false,
    field "shown" Source.truth (fun b a => { a with shown := b }) true] ⟨[], .polygon [], true⟩

def toValue (a : Area) : Value := .object [
  ("id", .string a.id), ("geometry", a.shape.toValue), ("shown", .bool a.shown)]

end Area

/-- The saved form of a workspace. -/
structure Document where
  areas : List Area := []
  filters : List FilterRecord := []
  entries : List EntryRecord := []

namespace Document

/-- Reads a document. What it holds as values stands inside the document, a list and a record. -/
def read : Reader Document :=
  let budget := Source.depthLimit - 3
  Source.record [
    field "areas" (Source.list (Area.read (budget - 1))) (fun l d => { d with areas := l }) true,
    field "filters" (Source.list (FilterRecord.read budget)) (fun l d => { d with filters := l })
      true,
    field "entries" (Source.list (EntryRecord.read budget)) (fun l d => { d with entries := l })
      true] {}

def ofText? (t : Text) : Except Fault Document := Json.readWhole read t

def content (d : Document) : Content where
  areas := d.areas.foldl (fun c a => c.insert a) .empty
  filters := d.filters.foldl (fun c r => c.insert r.named) .empty
  entries := d.entries.filterMap EntryRecord.entry?

def ofContent (c : Content) : Document :=
  ⟨c.areas.items, c.filters.items.map FilterRecord.ofNamed, c.entries.map EntryRecord.ofEntry⟩

def toValue (d : Document) : Value := .object [
  ("areas", .array (d.areas.map Area.toValue)),
  ("filters", .array (d.filters.map FilterRecord.toValue)),
  ("entries", .array (d.entries.map EntryRecord.toValue))]

end Document

namespace Entry

def listOfText? (t : Text) : Except Fault (List Entry) :=
  (Json.readWhole (Source.list (EntryRecord.read (Source.depthLimit - 2))) t).map
    (List.filterMap EntryRecord.entry?)

def listText (entries : List Entry) : Text :=
  Value.indented (.array (entries.map fun e => (EntryRecord.ofEntry e).toValue))

end Entry
end MapQuery
