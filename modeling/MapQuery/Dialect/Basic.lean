import MapQuery.Dialect.CqlText
import MapQuery.Dialect.FilterMarkup
import MapQuery.Dialect.WhereClause

/-!
# Dialects

The query languages of data sources, by name.
-/

set_option autoImplicit false

namespace MapQuery

inductive Dialect where
  | filterMarkup
  | cqlText
  | whereClause
  deriving DecidableEq

namespace Dialect

def all : List Dialect := [.filterMarkup, .cqlText, .whereClause]

def names : Dialect → Text × List Text
  | .filterMarkup => ("filter-encoding", ["fes", "ogc"])
  | .cqlText => ("ecql", ["cql"])
  | .whereClause => ("arc", ["esri"])

def name (d : Dialect) : Text := d.names.1

/-- The dialect of a name, in any ASCII case. -/
def ofName? (t : Text) : Option Dialect :=
  all.find? fun d => (d.names.1 :: d.names.2).contains (Text.lowerAscii t)

def unknownMessage (t : Text) : Text :=
  "unknown dialect '" ++ Text.lowerAscii t ++ "' (expected ecql, arc or filter-encoding)"

def grammar (d : Dialect) (o : CompileOptions) : Grammar :=
  match d with
  | .filterMarkup => FilterMarkup.grammar o
  | .cqlText => CqlText.grammar o
  | .whereClause => WhereClause.grammar o

end Dialect
end MapQuery
