import MapQuery.Area.Rings
import MapQuery.Dialect.PredicateText
import MapQuery.Junction.Merge

/-!
# Where clauses

The language of attribute stores. Patterns are matched in upper case on both sides; a pattern
without wildcards is looked for anywhere in the text. Included areas are parameters of their own,
excluded ones cannot be expressed.
-/

set_option autoImplicit false

namespace MapQuery.WhereClause

def truth : Bool → Text
  | true => "1"
  | false => "0"

/-- The clause that everything satisfies. -/
def matchAll : Text := "1=1"

def nullCheck (negated : Bool) (column : Text) : Text :=
  Text.paren (column ++ if negated then " is not null" else " is null")

/-- The pattern that is sent for a pattern in the alphabet of `%` and `_`. -/
def sentPattern (t : Text) : Text :=
  if hasPercentWildcard t then Text.upper t else "%" ++ Text.upper t ++ "%"

def like (negated : Bool) (column : Text) (l : Literal) (style : PatternStyle) : Text :=
  let keyword : Text := if negated then " not like " else " like "
  Text.paren ("UPPER" ++ Text.paren column ++ keyword
    ++ Quotation.quote (sentPattern (style.percentText l.rawText)))

/-- A selection of feature ids by their column. -/
def ids (idColumn : Text) (list : List Text) : Text :=
  Text.paren (idColumn ++ " IN "
    ++ PredicateText.valueList (list.map fun id => PredicateText.literal truth (.text id)))

def writer (idColumn : Text) : Writer where
  join := PredicateText.join
  negate := PredicateText.negate
  nullCheck := nullCheck
  relate := PredicateText.relate truth
  like := like
  between := PredicateText.between truth
  ids := ids idColumn

def areaParams (r : Resolution) : List (Text × Text) :=
  if r.included.isEmpty then []
  else [
    ("geometry", Rings.text (r.included.map ChosenArea.shape)),
    ("geometryType", "esriGeometryPolygon"),
    ("spatialRel", "esriSpatialRelIntersects"),
    ("inSR", Text.natural referenceSystem)]

/-- Included areas as parameters; excluded ones are only told of. -/
def spatial (r : Resolution) : SpatialPart where
  params := areaParams r
  advisories :=
    if r.excluded.isEmpty then [] else [.unsupportedExclusion r.layerId r.excluded.length]

/-- The two bounds of a time window in milliseconds. -/
def time (lower upper : Instant) : Text :=
  Text.integer lower.milliseconds ++ "," ++ Text.integer upper.milliseconds

/-- The value for a clause; what has none matches everything. -/
def finish (clause : Text) : Text := if clause.isEmpty then matchAll else clause

def grammar (o : CompileOptions) : Grammar where
  writer := writer o.idColumn
  merge := Junction.merge
  spatial := spatial
  time _ _ lower upper := .parameter "time" (time lower upper)
  parameter := "where"
  idsStandAlone := false
  finish clause := some (finish clause)
  conjoin existing addition :=
    finish (Junction.merge .and [if existing = matchAll then [] else existing, addition])

end MapQuery.WhereClause
