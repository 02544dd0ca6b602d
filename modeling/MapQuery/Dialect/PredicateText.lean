import MapQuery.Dialect.Grammar

/-!
# Predicate texts

What the text languages have in common: every predicate is one parenthesis group, and keywords join
groups.
-/

set_option autoImplicit false

namespace MapQuery.PredicateText

def join (op : Connective) (groups : List Text) : Text :=
  Text.paren (Text.joined (" " ++ op.keyword ++ " ") groups)

def negate (group : Text) : Text := Text.paren ("NOT " ++ group)

/-- A literal, given how truth values look. -/
def literal (truth : Bool → Text) (l : Literal) : Text :=
  match l.classify with
  | .number t => t
  | .bool b => truth b
  | .text t => Quotation.quote t

def relate (truth : Bool → Text) (r : Relation) (column : Text) (l : Literal) : Text :=
  Text.paren (column ++ " " ++ r.symbol ++ " " ++ literal truth l)

def between (truth : Bool → Text) (column : Text) (lower upper : Literal) : Text :=
  Text.paren (column ++ " BETWEEN " ++ literal truth lower ++ " AND " ++ literal truth upper)

def valueList (values : List Text) : Text := Text.paren (Text.joined ", " values)

/-- The value for a predicate; nothing restricts what has none. -/
def finish (predicate : Text) : Option Text := if predicate.isEmpty then none else some predicate

end MapQuery.PredicateText
