import MapQuery.Text.Case

/-!
# Connectives

The two operators that join sibling predicates.
-/

set_option autoImplicit false

namespace MapQuery

inductive Connective where
  | and
  | or
  deriving DecidableEq

namespace Connective

/-- The keyword of an operator in predicate texts. -/
def keyword : Connective → Text
  | .and => "AND"
  | .or => "OR"

/-- The name of an operator in filter trees and markup. -/
def name : Connective → Text
  | .and => "And"
  | .or => "Or"

/-- The operator a keyword names, in any ASCII case. -/
def ofKeyword? (t : Text) : Option Connective :=
  if Text.sameLetters t "AND" then some .and
  else if Text.sameLetters t "OR" then some .or
  else none

/-- The operator of a stored flag, which is true for conjunction. -/
def ofFlag (conjunction : Bool) : Connective := if conjunction then .and else .or

end Connective
end MapQuery
