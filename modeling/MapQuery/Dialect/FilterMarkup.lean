import MapQuery.Area.Gml
import MapQuery.Dialect.Grammar
import MapQuery.Time.Timestamp

/-!
# Filter markup

The XML language of feature services: every node is an element, and a filter is one document.
Feature ids stand directly inside the document, so a selection of them is never joined with
anything.
-/

set_option autoImplicit false

namespace MapQuery.FilterMarkup

def element (name content : Text) : Text := Markup.element ("ogc:" ++ name) [] content

def property (column : Text) : Text := element "PropertyName" (Markup.encode column)

def literal (l : Literal) : Text := element "Literal" (Markup.encode l.rawText)

def join (op : Connective) (parts : List Text) : Text := element op.name parts.flatten

def negate (part : Text) : Text := element "Not" part

def negateIf (negated : Bool) (part : Text) : Text := if negated then negate part else part

def nullCheck (negated : Bool) (column : Text) : Text :=
  negateIf negated (element "PropertyIsNull" (property column))

/-- A match with a pattern, which names its special characters. -/
def like (negated : Bool) (column : Text) (l : Literal) (style : PatternStyle) : Text :=
  negateIf negated (Markup.element "ogc:PropertyIsLike"
    [("wildCard", [style.wild]), ("singleChar", [style.single]), ("escapeChar", [style.escape])]
    (property column ++ literal l))

def between (column : Text) (lower upper : Literal) : Text :=
  element "PropertyIsBetween" (property column ++ element "LowerBoundary" (literal lower)
    ++ element "UpperBoundary" (literal upper))

/-- How every feature id starts. -/
def idMark : Text := "<ogc:FeatureId"

def featureId (id : Text) : Text := idMark ++ " fid=\"" ++ Markup.encode id ++ "\"/>"

def writer : Writer where
  join := join
  negate := negate
  nullCheck := nullCheck
  relate r column l := element r.name (property column ++ literal l)
  like := like
  between := between
  ids list := list.flatMap featureId

def merge (op : Connective) (parts : List Text) : Text := writer.joinParts op parts

def intersects (column : Text) (s : Shape Float) : Text :=
  element "Intersects" (property column ++ Gml.shape Decimal.Layout.plain.write s)

/-- One of the included areas has to be met and none of the excluded ones. -/
def spatial (column : Text) (r : Resolution) : SpatialPart where
  predicates :=
    merge .or (r.included.map fun a => intersects column a.shape) ::
      r.excluded.map fun a => negate (intersects column a.shape)

def time (w : TimeWindow) (wholeSeconds : Bool) (lower upper : Instant) : Text :=
  let bound (r : Relation) (column : Text) (a : Instant) : Text :=
    element r.name (property column ++ element "Literal" (Timestamp.write (!wholeSeconds) a))
  join .and [bound .lessOrEqual w.startColumn upper, bound .greaterOrEqual w.endColumn lower]

def documentOpen : Text :=
  "<ogc:Filter xmlns:ogc=\"http://www.opengis.net/ogc\" xmlns:gml=\"http://www.opengis.net/gml\">"

def documentClose : Text := "</ogc:Filter>"

/-- The document of an element; there is none without content. -/
def finish (content : Text) : Option Text :=
  if content.isEmpty then none else some (documentOpen ++ content ++ documentClose)

/-- The content of a document; any other text is its own content. -/
def content (document : Text) : Text :=
  ((Text.dropBeginning? documentOpen document).bind (Text.dropEnd? documentClose)).getD document

/-- A document with a further element, unless one of the two selects feature ids. -/
def conjoin (existing addition : Text) : Text :=
  if Text.occursIn idMark existing || Text.occursIn idMark addition then existing
  else (finish (merge .and [content existing, content addition])).getD []

def grammar (o : CompileOptions) : Grammar where
  writer := writer
  merge := merge
  spatial := spatial o.geometryColumn
  time w wholeSeconds lower upper := .predicate (time w wholeSeconds lower upper)
  parameter := "FILTER"
  idsStandAlone := true
  finish := finish
  conjoin := conjoin

end MapQuery.FilterMarkup
