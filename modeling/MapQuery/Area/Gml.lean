import MapQuery.Area.Shape
import MapQuery.Text.Markup

/-!
# Geography markup

The markup form of shapes: rings as coordinate lists, the first ring of a polygon as its outer
boundary, every ring closed. The outermost element names the reference system.
-/

set_option autoImplicit false

namespace MapQuery.Gml

open Markup (element)

variable {κ : Type} [BEq κ] (number : κ → Text)

def position (p : Position κ) : Text := number p.1 ++ "," ++ number p.2

def ring (r : Ring κ) : Text :=
  element "gml:LinearRing" []
    (element "gml:coordinates" [] (Text.joined " " ((closedRing r).map (position number))))

def boundaries : Polygon κ → Text
  | [] => []
  | exterior :: holes =>
    element "gml:outerBoundaryIs" [] (ring number exterior) ++
      holes.flatMap fun hole => element "gml:innerBoundaryIs" [] (ring number hole)

def polygon (attributes : List (Text × Text)) (p : Polygon κ) : Text :=
  element "gml:Polygon" attributes (boundaries number p)

def reference : List (Text × Text) := [("srsName", "EPSG:" ++ Text.natural referenceSystem)]

def shape : Shape κ → Text
  | .polygon rings => polygon number reference rings
  | .multiPolygon polygons =>
    element "gml:MultiPolygon" reference
      (polygons.flatMap fun p => element "gml:polygonMember" [] (polygon number [] p))

end MapQuery.Gml
