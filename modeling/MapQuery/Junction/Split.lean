import MapQuery.Junction.Outline

/-!
# Splitting joined predicates

A predicate text that is a run of parenthesis groups with one and the same keyword between them
splits into those groups. A lone group is looked into once: if its inside is such a run, the groups
inside are its parts.
-/

set_option autoImplicit false

namespace MapQuery

/-- How a predicate text divides into groups. -/
inductive Split where
  /-- It is not a run of groups. -/
  | undivided
  /-- It is one group whose inside is not a run. -/
  | single (group : Text)
  /-- It is a run of at least two groups. -/
  | run (op : Connective) (groups : List Text)
  /-- It is one group whose inside is a run of at least two groups. -/
  | wrapped (op : Connective) (groups : List Text)
  deriving DecidableEq

namespace Split

/-- The groups of an outline, if one keyword stands in every gap between them. -/
def joinedGroups? : List (Text × Text) → Option (List Text × Option Connective)
  | [] => none
  | [(group, gap)] => if gap.all isBlank then some ([group], none) else none
  | (group, gap) :: next :: rest =>
    match Connective.ofKeyword? (Text.trim gap), joinedGroups? (next :: rest) with
    | some op, some (groups, op') =>
      if op'.all (· == op) then some (group :: groups, some op) else none
    | _, _ => none

theorem blank_of_joinedGroups?_singleton {group gap : Text} {x : List Text × Option Connective}
    (h : joinedGroups? [(group, gap)] = some x) :
    Text.blank gap = true ∧ x = ([group], none) := by
  simp only [joinedGroups?] at h
  split at h
  · next hgap => exact ⟨hgap, (Option.some.inj h).symm⟩
  · simp at h

/-- What a run of two or more groups looks like at its first group. -/
theorem exists_of_joinedGroups?_cons {group gap : Text} {next : Text × Text}
    {rest : List (Text × Text)} {x : List Text × Option Connective}
    (h : joinedGroups? ((group, gap) :: next :: rest) = some x) :
    ∃ op groups op', Connective.ofKeyword? (Text.trim gap) = some op ∧
      joinedGroups? (next :: rest) = some (groups, op') ∧ op'.all (· == op) = true ∧
      x = (group :: groups, some op) := by
  simp only [joinedGroups?] at h
  split at h
  · next op groups op' hkeyword hrest =>
    split at h
    · next hsame => exact ⟨op, groups, op', hkeyword, hrest, hsame, (Option.some.inj h).symm⟩
    · simp at h
  · simp at h

/-- The groups of a run and the operator that joins them, which a lone group does not have. -/
def groupsOf? (t : Text) : Option (List Text × Option Connective) :=
  match Outline.ofText? 0 t with
  | some o => if o.gap.all isBlank then joinedGroups? o.groups else none
  | none => none

/-- Groups are found where nothing but blanks stands in front of the first. -/
theorem exists_outline_of_groupsOf? {t : Text} {x : List Text × Option Connective}
    (h : groupsOf? t = some x) : ∃ o, Outline.ofText? 0 t = some o ∧ Text.blank o.gap = true ∧
      joinedGroups? o.groups = some x := by
  unfold groupsOf? at h
  split at h
  · next o ho =>
    split at h
    · next hgap => exact ⟨o, ho, hgap, h⟩
    · cases h
  · cases h

def inside (group : Text) : Text := group.tail.dropLast

/-- How a text divides, blanks at its ends apart. -/
def ofText (t : Text) : Split :=
  match groupsOf? (Text.trim t) with
  | none => .undivided
  | some (groups, some op) => .run op groups
  | some (groups, none) =>
    let group := groups.headD []
    match groupsOf? (inside group) with
    | some (inner, some op) => .wrapped op inner
    | _ => .single group

/-- The parts of a text that divides so; an undivided text is its own part. -/
def parts (t : Text) : Split → List Text
  | .undivided => [Text.trim t]
  | .single group => [group]
  | .run _ groups | .wrapped _ groups => groups

/-- The operator between the parts. -/
def joiner? : Split → Option Connective
  | .undivided | .single _ => none
  | .run op _ | .wrapped op _ => some op

/-- Whether a text is one group from its first to its last character. -/
def isSingleGroup (t : Text) : Bool :=
  match Outline.ofText? 0 t with
  | some ⟨_, [], [(_, [])]⟩ => true
  | _ => false

end Split
end MapQuery
