import MapQuery.Filter.Tree

/-!
# Parts of filter trees

The nodes that a tree or a filter is made of, at every depth, and where in it they stand.
-/

set_option autoImplicit false

namespace MapQuery

namespace Node

/-- The nodes of a tree, the tree itself included. -/
inductive IsPart : Node → Node → Prop where
  | self (n : Node) : IsPart n n
  | child {n child : Node} {op : Connective} {children : List Node} :
      child ∈ children → IsPart n child → IsPart n (.group op children)
  | negated {n child : Node} : IsPart n child → IsPart n (.not child)

theorem IsPart.trans {a b c : Node} (hab : a.IsPart b) (hbc : b.IsPart c) : a.IsPart c := by
  induction hbc with
  | self => exact hab
  | child hmem _ ih => exact .child hmem ih
  | negated _ ih => exact .negated ih

theorem IsPart.columns_subset {n m : Node} (h : n.IsPart m) : n.columns ⊆ m.columns := by
  induction h with
  | self => exact List.Subset.refl _
  | @child child op children hmem _ ih =>
    intro column hcolumn
    rw [columns, columnsOfList_eq_flatMap, List.mem_flatMap]
    exact ⟨child, hmem, ih hcolumn⟩
  | negated _ ih => exact ih

theorem IsPart.selectsIds {n m : Node} (h : n.IsPart m) (hn : n.selectsIds = true) :
    m.selectsIds = true := by
  induction h with
  | self => exact hn
  | @child child op children hmem _ ih =>
    rw [Node.selectsIds, anySelectsIds_eq_any, List.any_eq_true]
    exact ⟨child, hmem, ih⟩
  | negated _ ih => exact ih

/-- The nodes right below a node. -/
def children : Node → List Node
  | .group _ children => children
  | .not child => [child]
  | .compare _ | .between _ _ _ | .ids _ | .malformed _ => []

/-- The node at a position, which is a path of indexes among children. -/
def at? (n : Node) : List Nat → Option Node
  | [] => some n
  | i :: path => n.children[i]?.bind fun child => child.at? path

/-- Induction over a tree. -/
theorem induct {motive : Node → Prop}
    (group : ∀ op children, (∀ n ∈ children, motive n) → motive (.group op children))
    (not : ∀ child, motive child → motive (.not child)) (compare : ∀ c, motive (.compare c))
    (between : ∀ column lower upper, motive (.between column lower upper))
    (ids : ∀ list, motive (.ids list)) (malformed : ∀ why, motive (.malformed why)) (n : Node) :
    motive n :=
  @Node.rec motive (fun nodes => ∀ n ∈ nodes, motive n) group not compare between ids malformed
    (by simp) (fun n rest hn hrest => by simpa using ⟨hn, hrest⟩) n

theorem exists_ids_of_selectsIds {n : Node} (h : n.selectsIds = true) :
    ∃ list, (Node.ids list).IsPart n := by
  induction n using Node.induct with
  | group op children ih =>
    rw [selectsIds, anySelectsIds_eq_any, List.any_eq_true] at h
    obtain ⟨child, hmem, hchild⟩ := h
    obtain ⟨list, hpart⟩ := ih child hmem hchild
    exact ⟨list, .child hmem hpart⟩
  | not child ih =>
    obtain ⟨list, hpart⟩ := ih h
    exact ⟨list, .negated hpart⟩
  | ids list => exact ⟨list, .self _⟩
  | compare c => cases h
  | between column lower upper => cases h
  | malformed why => cases h

mutual

/-- The nodes of a tree that have no nodes below them, in their order in the tree. -/
def leaves : Node → List Node
  | .group _ children => leavesOfList children
  | .not child => child.leaves
  | .compare c => [.compare c]
  | .between column lower upper => [.between column lower upper]
  | .ids list => [.ids list]
  | .malformed why => [.malformed why]

def leavesOfList : List Node → List Node
  | [] => []
  | n :: rest => n.leaves ++ leavesOfList rest

end

theorem leavesOfList_eq_flatMap (nodes : List Node) :
    leavesOfList nodes = nodes.flatMap leaves := by
  induction nodes with
  | nil => rfl
  | cons n rest ih => simp [leavesOfList, ih]

theorem IsPart.leaves_subset {n m : Node} (h : n.IsPart m) : n.leaves ⊆ m.leaves := by
  induction h with
  | self => exact List.Subset.refl _
  | @child child op children hmem _ ih =>
    intro leaf hleaf
    rw [leaves, leavesOfList_eq_flatMap, List.mem_flatMap]
    exact ⟨child, hmem, ih hleaf⟩
  | negated _ ih => exact ih

end Node

namespace Filter

/-- The nodes of a filter that have no nodes below them, in their order in the filter. -/
def leaves (f : Filter) : List Node := Node.leavesOfList f.nodes

/-- Whether a node is part of a filter. -/
def HasPart (f : Filter) (n : Node) : Prop := ∃ m ∈ f.nodes, n.IsPart m

/-- The node of a filter at a position. -/
def at? (f : Filter) : List Nat → Option Node
  | [] => none
  | i :: path => f.nodes[i]?.bind fun n => n.at? path

theorem HasPart.leaves_subset {f : Filter} {n : Node} (h : f.HasPart n) : n.leaves ⊆ f.leaves := by
  obtain ⟨m, hm, hpart⟩ := h
  intro leaf hleaf
  rw [leaves, Node.leavesOfList_eq_flatMap, List.mem_flatMap]
  exact ⟨m, hm, hpart.leaves_subset hleaf⟩

theorem selectsIds_iff {f : Filter} : f.selectsIds = true ↔ ∃ list, f.HasPart (.ids list) := by
  rw [selectsIds, Node.anySelectsIds_eq_any, List.any_eq_true]
  constructor
  · rintro ⟨m, hm, hselects⟩
    obtain ⟨list, hpart⟩ := Node.exists_ids_of_selectsIds hselects
    exact ⟨list, m, hm, hpart⟩
  · rintro ⟨list, m, hm, hpart⟩
    exact ⟨m, hm, hpart.selectsIds rfl⟩

end Filter

end MapQuery
