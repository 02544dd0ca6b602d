import MapQuery.Filter.Literal
import MapQuery.Filter.Pattern
import MapQuery.Junction.Connective

/-!
# Filter trees

A filter is a list of nodes; whoever uses it decides whether they are joined by AND or by OR. A
node that could not be understood stays in the tree with the reason and contributes nothing.
-/

set_option autoImplicit false

namespace MapQuery

/-- The order relations between a column and a literal. -/
inductive Relation where
  | equals
  | notEquals
  | less
  | lessOrEqual
  | greater
  | greaterOrEqual
  deriving DecidableEq

namespace Relation

def symbol : Relation → Text
  | .equals => "="
  | .notEquals => "<>"
  | .less => "<"
  | .lessOrEqual => "<="
  | .greater => ">"
  | .greaterOrEqual => ">="

def name : Relation → Text
  | .equals => "PropertyIsEqualTo"
  | .notEquals => "PropertyIsNotEqualTo"
  | .less => "PropertyIsLessThan"
  | .lessOrEqual => "PropertyIsLessThanOrEqualTo"
  | .greater => "PropertyIsGreaterThan"
  | .greaterOrEqual => "PropertyIsGreaterThanOrEqualTo"

end Relation

/-- The operators that compare a column. -/
inductive Operator where
  | relation (r : Relation)
  | like
  | notLike
  | isNull
  | isNotNull
  deriving DecidableEq

namespace Operator

/-- Every operator, in the order in which filter trees number them. -/
def all : List Operator :=
  [.relation .equals, .relation .notEquals, .relation .less, .relation .lessOrEqual,
    .relation .greater, .relation .greaterOrEqual, .like, .notLike, .isNull, .isNotNull]

def name : Operator → Text
  | .relation r => r.name
  | .like => "PropertyIsLike"
  | .notLike => "PropertyIsNotLike"
  | .isNull => "PropertyIsNull"
  | .isNotNull => "PropertyIsNotNull"

/-- Whether the operator compares with a literal; the null checks do not. -/
def takesLiteral (op : Operator) : Bool := op != .isNull && op != .isNotNull

def isLike (op : Operator) : Bool := op == .like || op == .notLike

theorem mem_all (op : Operator) : op ∈ all := by
  cases op with
  | relation r => cases r <;> decide
  | _ => decide

end Operator

/-- A column compared by an operator. -/
structure Comparison where
  operator : Operator
  column : Text
  /-- There is one exactly if the operator takes a literal. -/
  literal : Option Literal
  /-- Has a meaning for patterns only. -/
  pattern : PatternStyle
  deriving BEq

/-- Why a node could not be understood. -/
inductive Malformation where
  | noColumn (operator : Operator)
  | noLiteral (operator : Operator) (column : Text)
  | noChild
  | incompleteBetween
  | unknownElement
  /-- A reason given in words. -/
  | stated (reason : Text)

def Malformation.message : Malformation → Text
  | .noColumn op => op.name ++ " without PropertyName"
  | .noLiteral op column => op.name ++ " on " ++ column ++ " without Literal"
  | .noChild => "Not without child"
  | .incompleteBetween => "PropertyIsBetween is incomplete"
  | .unknownElement => "unknown filter element"
  | .stated reason => reason

/-- Reasons are the same when they are worded the same. -/
instance : BEq Malformation := ⟨fun a b => a.message == b.message⟩

inductive Node where
  | group (op : Connective) (children : List Node)
  | not (child : Node)
  | compare (comparison : Comparison)
  | between (column : Text) (lower upper : Literal)
  /-- Selects the features with the given ids. -/
  | ids (ids : List Text)
  | malformed (why : Malformation)

namespace Node

/-- A comparison with a literal in the default pattern style; null checks drop the literal. -/
def comparing (op : Operator) (column : Text) (literal : Literal) : Node :=
  .compare ⟨op, column, if op.takesLiteral then some literal else none, {}⟩

mutual

/-- Whether two trees are the same; numbers are compared as numbers. -/
def same : Node → Node → Bool
  | .group op children, .group op' children' => op == op' && sameList children children'
  | .not n, .not n' => same n n'
  | .compare c, .compare c' => c == c'
  | .between column lower upper, .between column' lower' upper' =>
    column == column' && lower == lower' && upper == upper'
  | .ids list, .ids list' => list == list'
  | .malformed why, .malformed why' => why == why'
  | _, _ => false

def sameList : List Node → List Node → Bool
  | [], [] => true
  | n :: rest, n' :: rest' => same n n' && sameList rest rest'
  | _, _ => false

end

instance : BEq Node := ⟨same⟩

mutual

/-- The columns of a tree in their order in the tree. -/
def columns : Node → List Text
  | .group _ children => columnsOfList children
  | .not child => child.columns
  | .compare c => [c.column]
  | .between column _ _ => [column]
  | .ids _ | .malformed _ => []

def columnsOfList : List Node → List Text
  | [] => []
  | n :: rest => n.columns ++ columnsOfList rest

end

mutual

/-- Whether feature ids are selected anywhere in a tree. -/
def selectsIds : Node → Bool
  | .ids _ => true
  | .group _ children => anySelectsIds children
  | .not child => child.selectsIds
  | .compare _ | .between _ _ _ | .malformed _ => false

def anySelectsIds : List Node → Bool
  | [] => false
  | n :: rest => n.selectsIds || anySelectsIds rest

end

mutual

/-- The first malformation in a tree. -/
def malformation? : Node → Option Malformation
  | .malformed why => some why
  | .group _ children => malformationOfList? children
  | .not child => child.malformation?
  | .compare _ | .between _ _ _ | .ids _ => none

def malformationOfList? : List Node → Option Malformation
  | [] => none
  | n :: rest => n.malformation?.or (malformationOfList? rest)

end

theorem columnsOfList_eq_flatMap (nodes : List Node) :
    columnsOfList nodes = nodes.flatMap columns := by
  induction nodes with
  | nil => rfl
  | cons n rest ih => simp [columnsOfList, ih]

theorem anySelectsIds_eq_any (nodes : List Node) : anySelectsIds nodes = nodes.any selectsIds := by
  induction nodes with
  | nil => rfl
  | cons n rest ih => simp [anySelectsIds, ih]

theorem malformationOfList?_eq_findSome? (nodes : List Node) :
    malformationOfList? nodes = nodes.findSome? malformation? := by
  induction nodes with
  | nil => rfl
  | cons n rest ih => cases h : n.malformation? <;> simp [malformationOfList?, ih, h]

end Node

/-- A filter: its top-level nodes. -/
structure Filter where
  nodes : List Node

namespace Filter

instance : BEq Filter := ⟨fun f g => Node.sameList f.nodes g.nodes⟩

/-- The columns of a filter in their order in the tree. -/
def columns (f : Filter) : List Text := Node.columnsOfList f.nodes

def selectsIds (f : Filter) : Bool := Node.anySelectsIds f.nodes

def malformation? (f : Filter) : Option Malformation := Node.malformationOfList? f.nodes

/-- Whether a filter is one selection of feature ids and nothing else. -/
def isIdSelection (f : Filter) : Bool :=
  match f.nodes with
  | [.ids _] => true
  | _ => false

end Filter
end MapQuery
