import MapQuery.Area.Shape
import MapQuery.Filter.Columns
import MapQuery.Text.Quotation
import MapQuery.Time.Window
import MapQuery.Workspace.Resolution

/-!
# Grammars

What the compilation of a query needs to know about the language of a data source. Trees are
written by one recursion for all languages; a language only says how its parts look. A part that
has nothing to say is the empty text.
-/

set_option autoImplicit false

namespace MapQuery

/-- How a language writes the parts of a filter tree. -/
structure Writer where
  join : Connective → List Text → Text
  negate : Text → Text
  /-- A null check, or its negation. -/
  nullCheck : (negated : Bool) → (column : Text) → Text
  relate : Relation → (column : Text) → Literal → Text
  /-- A column matched with a pattern, or its negation. -/
  like : (negated : Bool) → (column : Text) → Literal → PatternStyle → Text
  between : (column : Text) → (lower upper : Literal) → Text
  /-- A selection of one or more feature ids. -/
  ids : List Text → Text

namespace Writer

variable (w : Writer)

/-- The parts that say something, one as it is and more joined. -/
def joinParts (op : Connective) (parts : List Text) : Text :=
  match parts.filter (!·.isEmpty) with
  | [] => []
  | [part] => part
  | parts => w.join op parts

/-- A comparison; without the literal it needs it says nothing. -/
def comparison (c : Comparison) : Text :=
  match c.operator, c.literal with
  | .isNull, _ => w.nullCheck false c.column
  | .isNotNull, _ => w.nullCheck true c.column
  | _, none => []
  | .relation r, some l => w.relate r c.column l
  | .like, some l => w.like false c.column l c.pattern
  | .notLike, some l => w.like true c.column l c.pattern

mutual

/-- The text of a node; empty if no part of it says anything. -/
def node : Node → Text
  | .group op children => w.joinParts op (nodes children)
  | .not child =>
    let inner := node child
    if inner.isEmpty then [] else w.negate inner
  | .compare c => w.comparison c
  | .between column lower upper => w.between column lower upper
  | .ids list => if list.isEmpty then [] else w.ids list
  | .malformed _ => []

def nodes : List Node → List Text
  | [] => []
  | n :: rest => node n :: nodes rest

end

theorem nodes_eq_map (list : List Node) : w.nodes list = list.map w.node := by
  induction list with
  | nil => rfl
  | cons n rest ih => simp [nodes, ih]

end Writer

/-- What the areas of a query become. -/
structure SpatialPart where
  /-- Predicates that are joined with the filters by AND. -/
  predicates : List Text := []
  params : List (Text × Text) := []
  advisories : List Advisory := []

/-- What a time window becomes. -/
inductive TimePart where
  /-- A predicate for the filter parameter. -/
  | predicate (text : Text)
  /-- A parameter of its own. -/
  | parameter (name value : Text)
  deriving DecidableEq

/-- The language of a data source. -/
structure Grammar where
  writer : Writer
  /-- Merges predicates that were written independently. -/
  merge : Connective → List Text → Text
  spatial : Resolution → SpatialPart
  /-- A time window between the given bounds, written to the second or the millisecond. -/
  time : TimeWindow → (wholeSeconds : Bool) → (lower upper : Instant) → TimePart
  /-- The request parameter that carries the filter. -/
  parameter : Text
  /-- Whether a selection of feature ids has to be the whole filter. -/
  idsStandAlone : Bool
  /-- The parameter value for a predicate. -/
  finish : Text → Option Text
  /-- The parameter value for a finished one and a further predicate. -/
  conjoin : (existing addition : Text) → Text

namespace Grammar

variable (g : Grammar)

/-- The text of a filter whose nodes are joined by an operator, its literals still shielded. -/
def fragment (op : Connective) (f : Filter) : Text := g.merge op (g.writer.nodes f.nodes)

/-- The text of a filter whose nodes are joined by an operator. -/
def filterText (op : Connective) (f : Filter) : Text := Quotation.restore (g.fragment op f)

/-- What a time window becomes; `none` if a bound would leave the calendar. -/
def timePart? (w : TimeWindow) (wholeSeconds : Bool) : Option TimePart :=
  (w.bounds? wholeSeconds).map fun b => g.time w wholeSeconds b.1 b.2

end Grammar

/-- What compilation depends on beside the query itself. -/
structure CompileOptions where
  /-- The column that holds the geometry of features. -/
  geometryColumn : Text := "geom"
  /-- The column that holds the ids of features, where ids are a column. -/
  idColumn : Text := "OBJECTID"
  /-- The columns by which filters are checked, if they are known. -/
  columns : Option Columns := none

end MapQuery
