import MapQuery.Filter.Columns

/-!
# Advisories

What a user is told about a query: parts of it that could not be used. An advisory never keeps the
rest of the query from being used.
-/

set_option autoImplicit false

namespace MapQuery

/-- A part of a query that could not be used. -/
inductive Advisory where
  | malformedFilter (id reason : Text)
  | rejectedColumn (id column : Text) (why : ColumnFault)
  | emptyFilter (id : Text)
  /-- A selection of feature ids that does not stand alone. -/
  | mixedIds (id : Text)
  | unsupportedExclusion (layerId : Text) (count : Nat)
  deriving DecidableEq

def Advisory.message : Advisory → Text
  | .malformedFilter id reason => "filter " ++ id ++ " is malformed: " ++ reason
  | .rejectedColumn id column why =>
    "filter " ++ id ++ " references column " ++ column ++ ": " ++ why.message
  | .emptyFilter id => "filter " ++ id ++ " contributed no predicate"
  | .mixedIds id => "filter " ++ id ++ " selects feature ids alongside other predicates"
  | .unsupportedExclusion layerId count =>
    Text.natural count ++ " exclusion area(s) cannot be expressed for layer " ++ layerId

end MapQuery
