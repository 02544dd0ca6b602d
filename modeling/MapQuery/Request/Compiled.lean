import MapQuery.Dialect.Basic

/-!
# Compiled queries

What a layer selects becomes one predicate: the areas, and the filters under the operator of the
layer's first entry. A filter that cannot be used is told of and left out.
-/

set_option autoImplicit false

namespace MapQuery

structure CompiledQuery where
  layerId : Text
  dialect : Dialect
  /-- The request parameter that carries the filter. -/
  parameter : Text
  /-- Its value; none where nothing restricts the request. -/
  filter : Option Text
  params : List (Text × Text)
  advisories : List Advisory
  deriving DecidableEq

namespace Resolution

/-- Whether a filter is a selection of feature ids and all that the layer selects. -/
def isStandaloneSelection (r : Resolution) (f : Filter) : Bool :=
  r.filters.length == 1 && f.isIdSelection && r.included.isEmpty && r.excluded.isEmpty

end Resolution

namespace ChosenFilter

variable (g : Grammar) (columns : Option Columns) (r : Resolution)

/-- Why a filter is left out before it is written, if it is. -/
def refusal? (f : ChosenFilter) : Option Advisory :=
  match columns.bind fun cs => cs.firstFault? f.filter with
  | some (column, why) => some (.rejectedColumn f.id column why)
  | none =>
    if g.idsStandAlone && f.filter.selectsIds && !r.isStandaloneSelection f.filter then
      some (.mixedIds f.id)
    else none

/-- The predicate of a filter, empty if there is none, and what is to be told of it. -/
def contribution (f : ChosenFilter) : Text × List Advisory :=
  match f.refusal? g columns r with
  | some advisory => ([], [advisory])
  | none =>
    let malformed := (f.filter.malformation?.map fun why =>
      Advisory.malformedFilter f.id why.message).toList
    let text := g.fragment f.group f.filter
    (text, malformed ++ if text.isEmpty then [.emptyFilter f.id] else [])

end ChosenFilter

def compileQuery (d : Dialect) (o : CompileOptions) (r : Resolution) : CompiledQuery :=
  let g := d.grammar o
  let contributions := r.filters.map fun f => f.contribution g o.columns r
  let texts := (contributions.map Prod.fst).filter (!·.isEmpty)
  let spatial := g.spatial r
  let predicate := g.merge .and (spatial.predicates ++ [g.merge r.group texts])
  { layerId := r.layerId
    dialect := d
    parameter := g.parameter
    filter := g.finish (Quotation.restore predicate)
    params := spatial.params
    advisories := r.advisories ++ contributions.flatMap Prod.snd ++ spatial.advisories }

end MapQuery
