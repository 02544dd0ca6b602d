import MapQuery.Json.Decode

/-!
# Shapes of areas

An area is a polygon or several, each an exterior ring followed by its holes. Rings may be stored
open; `closedRing` repeats the first position where it is missing.
-/

set_option autoImplicit false

namespace MapQuery

def referenceSystem : Nat := 4326

/-- A position, longitude first. -/
abbrev Position (κ : Type) := κ × κ

/-- An open or closed ring of positions. -/
abbrev Ring (κ : Type) := List (Position κ)

/-- An exterior ring and its holes. -/
abbrev Polygon (κ : Type) := List (Ring κ)

inductive Shape (κ : Type) where
  | polygon (rings : Polygon κ)
  | multiPolygon (polygons : List (Polygon κ))
  deriving BEq

def Shape.polygons {κ : Type} : Shape κ → List (Polygon κ)
  | .polygon rings => [rings]
  | .multiPolygon polygons => polygons

/-- The ring with its first position repeated at the end when the last one differs. -/
def closedRing {κ : Type} [BEq κ] (ring : Ring κ) : Ring κ :=
  match ring.head?, ring.getLast? with
  | some first, some last => if first == last then ring else ring ++ [first]
  | _, _ => ring

namespace Shape

open Json (Fault Reader Source Break Value)

inductive Kind where
  | polygon
  | multiPolygon

def Kind.name : Kind → Text
  | .polygon => "Polygon"
  | .multiPolygon => "MultiPolygon"

def Kind.ofName? (t : Text) : Option Kind :=
  if t = Kind.polygon.name then some .polygon
  else if t = Kind.multiPolygon.name then some .multiPolygon
  else none

/-- Reads a kind as the member of an object. -/
def Kind.read : Reader Kind := Source.choice Kind.ofName?

/-- Reads a kind as the first item of an array, where it can only be its name. -/
def Kind.readItem : Reader Kind := fun s => do
  let name ← s.text
  match Kind.ofName? name with
  | some kind => .ok kind
  | none => .error .shape

def readPolygon : Reader (Polygon Float) := Source.list (Source.list (Source.pair Source.real))

def readCoordinates : Kind → Reader (Shape Float)
  | .polygon => fun s => (readPolygon s).map .polygon
  | .multiPolygon => fun s => (Source.list readPolygon s).map .multiPolygon

/-- How much of a shape has been read. -/
inductive Progress where
  | nothing
  | ofKind (kind : Kind)
  /-- Coordinates that came before their kind. -/
  | ofCoordinates (value : Value)
  | whole (shape : Shape Float)

def Progress.readKind (s : Source) : Progress → Except Fault Progress
  | .nothing => (Kind.read s).map .ofKind
  | .ofCoordinates v => do
    let kind ← Kind.read s
    (Source.fromValue (Shape.readCoordinates kind) v).map .whole
  | .ofKind _ | .whole _ => .error .shape

def Progress.readCoordinates (budget : Nat) (s : Source) : Progress → Except Fault Progress
  | .nothing => (s.value budget).map .ofCoordinates
  | .ofKind kind => (Shape.readCoordinates kind s).map .whole
  | .ofCoordinates _ | .whole _ => .error .shape

/-- Reads the members of a shape; coordinates before their kind are kept as a value. -/
def readMembers (budget : Nat) :
    List (Except Fault Text × Source) → Progress → Except Fault Progress
  | [], p => .ok p
  | (key, s) :: rest, p => do
    let k ← key
    if k = "type" then
      let p ← p.readKind s
      readMembers budget rest p
    else if k = "coordinates" then
      let p ← p.readCoordinates budget s
      readMembers budget rest p
    else
      s.skip
      readMembers budget rest p

/-- Reads a shape, an object of its kind and its coordinates or an array of the two. -/
def read (budget : Nat) : Reader (Shape Float)
  | .object members cut => do
    let p ← readMembers budget members .nothing
    let p ← Source.ending cut p
    match p with
    | .whole shape => .ok shape
    | _ => .error .shape
  | .array (kind :: coordinates :: rest) cut => do
    let kind ← Kind.readItem kind
    let shape ← readCoordinates kind coordinates
    Source.atEnd rest cut shape
  | .array (kind :: []) cut => do
    let _ ← Kind.readItem kind
    .error (Source.tooShort cut)
  | .array [] cut => .error (Source.tooShort cut)
  | s => .error s.mismatch

def ringValue (ring : Ring Float) : Value :=
  .array (ring.map fun p => .array [.number (.real p.1), .number (.real p.2)])

def polygonValue (polygon : Polygon Float) : Value := .array (polygon.map ringValue)

def toValue : Shape Float → Value
  | .polygon rings => .object [
      ("type", .string Kind.polygon.name), ("coordinates", polygonValue rings)]
  | .multiPolygon polygons => .object [
      ("type", .string Kind.multiPolygon.name),
      ("coordinates", .array (polygons.map polygonValue))]

end Shape
end MapQuery
