import MapQuery.Text.Blank

/-!
# Selectors

A selector names one layer, area or filter, or stands for every one of them.
-/

set_option autoImplicit false

namespace MapQuery

/-- One id, or the wildcard. -/
inductive Selector where
  | any
  | id (id : Text)
  deriving DecidableEq

namespace Selector

/-- The text of the wildcard. -/
def wildcard : Text := "*"

/-- The selector of a text, blanks at its ends apart; an empty text selects nothing. -/
def ofText? (t : Text) : Option Selector :=
  let t := Text.trim t
  if t.isEmpty then none else if t = wildcard then some .any else some (.id t)

def text : Selector → Text
  | .any => wildcard
  | .id own => own

def covers (id : Text) : Selector → Bool
  | .any => true
  | .id own => own == id

def isWildcard (s : Selector) : Bool := s == .any

end Selector
end MapQuery
