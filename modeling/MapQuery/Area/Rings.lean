import MapQuery.Area.Shape
import MapQuery.Json.Printer

/-!
# Oriented rings

The JSON form that takes all shapes of a query as one list of closed rings: exterior rings turn
clockwise, holes counter-clockwise.
-/

set_option autoImplicit false

namespace MapQuery.Rings

section

variable {κ : Type} [Add κ] [Sub κ] [Mul κ] [OfNat κ 0]

/-- One term of the area sum: the cross product of two positions. -/
def cross (p q : Position κ) : κ := p.1 * q.2 - q.1 * p.2

/-- Twice the area of a ring, positive when it turns counter-clockwise. -/
def signedArea (r : Ring κ) : κ :=
  (List.zipWith cross r (r.drop 1 ++ r.take 1)).foldl (· + ·) 0

variable [BEq κ] [LT κ] [DecidableLT κ]

/-- The closed ring, turned clockwise or counter-clockwise. -/
def oriented (clockwise : Bool) (r : Ring κ) : Ring κ :=
  let r := closedRing r
  if decide (signedArea r < 0) = clockwise then r else r.reverse

/-- The oriented rings of a polygon; the first is its exterior. -/
def ofPolygon : Polygon κ → List (Ring κ)
  | [] => []
  | exterior :: holes => oriented true exterior :: holes.map (oriented false)

def ofShapes (shapes : List (Shape κ)) : List (Ring κ) :=
  shapes.flatMap fun s => s.polygons.flatMap ofPolygon

end

def text (shapes : List (Shape Float)) : Text :=
  Json.Value.compact (.object [
    ("rings", .array ((ofShapes shapes).map Shape.ringValue)),
    ("spatialReference", .object [("wkid", .number (.int referenceSystem))])])

end MapQuery.Rings
