import MapQuery.Junction.Split

/-!
# Merging predicate texts

Texts are merged under one operator. A text that is already a run of groups under that operator
gives its groups, any other one group; blank texts give nothing. Two or more groups are joined and
wrapped once.
-/

set_option autoImplicit false

namespace MapQuery.Junction

/-- Groups joined by a keyword in one pair of parentheses. -/
def wrap (op : Connective) (groups : List Text) : Text :=
  Text.paren (Text.joined (" " ++ op.keyword ++ " ") groups)

/-- The groups that a text gives to a join. -/
def members (op : Connective) (t : Text) : List Text :=
  let t := Text.trim t
  if t.isEmpty then []
  else
    match Split.ofText t with
    | .undivided => [Text.paren t]
    | .single group => [group]
    | .run op' groups => if op' = op then groups else [Text.paren t]
    | .wrapped op' groups => if op' = op then groups else [t]

/-- One group as it is, several joined. -/
def joinMembers (op : Connective) : List Text → Text
  | [] => []
  | [group] => group
  | groups => wrap op groups

def merge (op : Connective) (texts : List Text) : Text :=
  joinMembers op (texts.flatMap (members op))

end MapQuery.Junction
