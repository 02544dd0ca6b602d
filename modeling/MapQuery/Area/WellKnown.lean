import MapQuery.Area.Shape

/-!
# Well-known text

The text form of shapes: positions as two numbers, rings and polygons in parentheses, every ring
closed.
-/

set_option autoImplicit false

namespace MapQuery.WellKnown

variable {κ : Type} [BEq κ] (number : κ → Text)

def position (p : Position κ) : Text := number p.1 ++ " " ++ number p.2

def ring (r : Ring κ) : Text := Text.paren (Text.joined ", " ((closedRing r).map (position number)))

def polygon (p : Polygon κ) : Text := Text.paren (Text.joined ", " (p.map (ring number)))

def shape : Shape κ → Text
  | .polygon rings => "POLYGON " ++ polygon number rings
  | .multiPolygon polygons =>
    "MULTIPOLYGON " ++ Text.paren (Text.joined ", " (polygons.map (polygon number)))

end MapQuery.WellKnown
