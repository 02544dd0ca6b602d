import MapQuery.Filter.Tree
import MapQuery.Json.Decode

/-!
# Columns

The columns of a data source, by which filters are checked before they are used. Dates and
geometries are not filtered: time has its own window and space its own areas.
-/

set_option autoImplicit false

namespace MapQuery

inductive ColumnType where
  | string
  | integer
  | double
  | boolean
  | date
  | geometry
  | other
  deriving DecidableEq

namespace ColumnType

def name : ColumnType → Text
  | .string => "string"
  | .integer => "integer"
  | .double => "double"
  | .boolean => "boolean"
  | .date => "date"
  | .geometry => "geometry"
  | .other => "other"

def all : List ColumnType := [.string, .integer, .double, .boolean, .date, .geometry, .other]

/-- The part of a type name after its last colon. -/
def localName (t : Text) : Text := (t.reverse.takeWhile (· != ':')).reverse

/-- The local type names with a type of their own. -/
def wellKnown : List (ColumnType × List Text) := [
  (.string, ["string", "text", "varchar"]),
  (.integer, ["int", "integer", "long", "short", "byte"]),
  (.double, ["double", "float", "decimal", "number"]),
  (.boolean, ["boolean", "bool"]),
  (.date, ["date", "datetime", "time", "timestamp"])]

/-- The type that a schema's type name stands for. -/
def ofTypeName (t : Text) : ColumnType :=
  let local_ := Text.lowerAscii (localName t)
  if (Text.dropEnd? "propertytype" local_).isSome || local_ == "geometry" then .geometry
  else ((wellKnown.find? fun k => k.2.contains local_).map Prod.fst).getD .other

/-- Whether filters may use a column of this type. -/
def isFilterable (t : ColumnType) : Bool := t != .date && t != .geometry

end ColumnType

structure Column where
  name : Text
  type : ColumnType
  deriving DecidableEq

/-- Why a column may not be used. -/
inductive ColumnFault where
  | unknown
  | date
  | geometry
  deriving DecidableEq

def ColumnFault.message : ColumnFault → Text
  | .unknown => "column does not exist"
  | .date => "date columns are only filtered through the time range"
  | .geometry => "geometry columns are not filterable"

structure Columns where
  list : List Column

namespace Columns

/-- The first column of a name, in any ASCII case. -/
def find? (cs : Columns) (name : Text) : Option Column :=
  cs.list.find? fun c => Text.sameLetters c.name name

/-- What is wrong with using a column in a filter. -/
def fault? (cs : Columns) (name : Text) : Option ColumnFault :=
  match cs.find? name with
  | none => some .unknown
  | some c =>
    match c.type with
    | .date => some .date
    | .geometry => some .geometry
    | _ => none

/-- The first column of a filter that may not be used, and why. -/
def firstFault? (cs : Columns) (f : Filter) : Option (Text × ColumnFault) :=
  f.columns.findSome? fun name => (cs.fault? name).map (name, ·)

end Columns

def ColumnType.read : Json.Reader ColumnType :=
  Json.Source.choice fun name => ColumnType.all.find? (·.name == name)

def Columns.read : Json.Reader Columns := fun s => do
  let columns ← s.list (Json.Source.record [
    Json.field "name" Json.Source.text (fun name c => { c with name := name }) false,
    Json.field "type" ColumnType.read (fun type c => { c with type := type }) false] ⟨[], .other⟩)
  .ok ⟨columns⟩

end MapQuery
