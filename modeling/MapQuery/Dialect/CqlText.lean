import MapQuery.Area.WellKnown
import MapQuery.Dialect.PredicateText
import MapQuery.Junction.Merge
import MapQuery.Time.Timestamp

/-!
# CQL text

The text language of feature services. Areas and the time window are predicates like any other.
-/

set_option autoImplicit false

namespace MapQuery.CqlText

/-- The words of truth values. -/
def truth : Bool → Text
  | true => "TRUE"
  | false => "FALSE"

def nullCheck (negated : Bool) (column : Text) : Text :=
  Text.paren (column ++ if negated then " IS NOT NULL" else " IS NULL")

/-- A match with a pattern, which ignores case. -/
def like (negated : Bool) (column : Text) (l : Literal) (style : PatternStyle) : Text :=
  let keyword : Text := if negated then " NOT ILIKE " else " ILIKE "
  Text.paren (column ++ keyword ++ Quotation.quote (style.percentText l.rawText))

def ids (list : List Text) : Text :=
  Text.paren ("IN " ++ PredicateText.valueList (list.map Quotation.quote))

def writer : Writer where
  join := PredicateText.join
  negate := PredicateText.negate
  nullCheck := nullCheck
  relate := PredicateText.relate truth
  like := like
  between := PredicateText.between truth
  ids := ids

def intersects (column : Text) (s : Shape Float) : Text :=
  "INTERSECTS(" ++ column ++ ", " ++ WellKnown.shape Decimal.Layout.plain.write s ++ ")"

/-- One of the included areas has to be met and none of the excluded ones. -/
def spatial (column : Text) (r : Resolution) : SpatialPart where
  predicates :=
    Junction.merge .or (r.included.map fun a => Text.paren (intersects column a.shape)) ::
      r.excluded.map fun a => PredicateText.negate (intersects column a.shape)

def time (w : TimeWindow) (wholeSeconds : Bool) (lower upper : Instant) : Text :=
  Text.paren (Text.paren (w.startColumn ++ " <= " ++ Timestamp.write (!wholeSeconds) upper)
    ++ " AND " ++ Text.paren (w.endColumn ++ " >= " ++ Timestamp.write (!wholeSeconds) lower))

def grammar (o : CompileOptions) : Grammar where
  writer := writer
  merge := Junction.merge
  spatial := spatial o.geometryColumn
  time w wholeSeconds lower upper := .predicate (time w wholeSeconds lower upper)
  parameter := "CQL_FILTER"
  idsStandAlone := false
  finish := PredicateText.finish
  conjoin existing addition := Junction.merge .and [existing, addition]

end MapQuery.CqlText
