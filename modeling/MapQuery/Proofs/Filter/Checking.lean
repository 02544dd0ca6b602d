import Mathlib.Data.List.Lex
import MapQuery.Filter.Columns
import MapQuery.Proofs.Filter.Parts

/-!
# Checked columns

A filter is checked against the columns of a data source by the columns that its comparisons and
range checks name, at every depth and in their order in the tree. The first one that may not be used
is told, and why.
-/

set_option autoImplicit false

namespace MapQuery

/-! ## Columns of a name -/

namespace Columns

variable (cs : Columns) (name : Text)

/-- The first column of a name, in any ASCII case. -/
def Finds (c : Column) : Prop :=
  ∃ before after, cs.list = before ++ c :: after ∧ Text.sameLetters c.name name = true ∧
    ∀ b ∈ before, Text.sameLetters b.name name = false

/-- Whether filters may use the column of a name. -/
def Allows : Prop := ∃ c, cs.Finds name c ∧ c.type ≠ .date ∧ c.type ≠ .geometry

/-- Why filters may not use it. -/
inductive Refuses : ColumnFault → Prop
  | unknown (h : ∀ c ∈ cs.list, Text.sameLetters c.name name = false) : Refuses .unknown
  | date (c : Column) (h : cs.Finds name c) (htype : c.type = .date) : Refuses .date
  | geometry (c : Column) (h : cs.Finds name c) (htype : c.type = .geometry) : Refuses .geometry

variable {cs : Columns} {name : Text}

theorem find?_eq_some_iff {c : Column} : cs.find? name = some c ↔ cs.Finds name c := by
  simp only [find?, Finds, List.find?_eq_some_iff_append, Bool.not_eq_true']
  constructor
  · rintro ⟨hname, before, after, hlist, hbefore⟩
    exact ⟨before, after, hlist, hname, hbefore⟩
  · rintro ⟨before, after, hlist, hname, hbefore⟩
    exact ⟨hname, before, after, hlist, hbefore⟩

theorem find?_eq_none_iff :
    cs.find? name = none ↔ ∀ c ∈ cs.list, Text.sameLetters c.name name = false := by
  simp [find?]

theorem fault?_of_find? {c : Column} (h : cs.find? name = some c) :
    cs.fault? name = none ∧ c.type ≠ .date ∧ c.type ≠ .geometry ∨
      cs.fault? name = some .date ∧ c.type = .date ∨
      cs.fault? name = some .geometry ∧ c.type = .geometry := by
  cases htype : c.type <;> simp [fault?, h, htype]

theorem fault?_eq_none_iff : cs.fault? name = none ↔ cs.Allows name := by
  constructor
  · intro hnone
    cases hfind : cs.find? name with
    | none => simp [fault?, hfind] at hnone
    | some c =>
      rcases fault?_of_find? hfind with ⟨-, htype⟩ | ⟨hfault, -⟩ | ⟨hfault, -⟩
      · exact ⟨c, find?_eq_some_iff.1 hfind, htype⟩
      · rw [hnone] at hfault
        cases hfault
      · rw [hnone] at hfault
        cases hfault
  · rintro ⟨c, hc, hdate, hgeometry⟩
    rcases fault?_of_find? (find?_eq_some_iff.2 hc) with ⟨hnone, -⟩ | ⟨-, htype⟩ | ⟨-, htype⟩
    · exact hnone
    · exact absurd htype hdate
    · exact absurd htype hgeometry

theorem fault?_eq_some_iff {why : ColumnFault} :
    cs.fault? name = some why ↔ cs.Refuses name why := by
  constructor
  · intro hsome
    cases hfind : cs.find? name with
    | none =>
      obtain rfl : .unknown = why := by simpa [fault?, hfind] using hsome
      exact .unknown (find?_eq_none_iff.1 hfind)
    | some c =>
      have hc := find?_eq_some_iff.1 hfind
      rcases fault?_of_find? hfind with ⟨hfault, -⟩ | ⟨hfault, htype⟩ | ⟨hfault, htype⟩
      · rw [hsome] at hfault
        cases hfault
      · obtain rfl := Option.some.inj (hsome.symm.trans hfault)
        exact .date c hc htype
      · obtain rfl := Option.some.inj (hsome.symm.trans hfault)
        exact .geometry c hc htype
  · intro hrefuses
    cases hrefuses with
    | unknown h => simp [fault?, find?_eq_none_iff.2 h]
    | date c h htype => simp [fault?, find?_eq_some_iff.2 h, htype]
    | geometry c h htype => simp [fault?, find?_eq_some_iff.2 h, htype]

end Columns

/-! ## Columns and their positions -/

namespace Node

/-- The column that a node by itself names. -/
def column? : Node → Option Text
  | .compare c => some c.column
  | .between column _ _ => some column
  | .group _ _ | .not _ | .ids _ | .malformed _ => none

def columnAt? (n : Node) (path : List Nat) : Option Text := (n.at? path).bind column?

/-- The column that is named at a position below some nodes. -/
def columnBelow? (nodes : List Node) : List Nat → Option Text
  | [] => none
  | i :: path => nodes[i]?.bind fun n => n.columnAt? path

theorem columnAt?_eq_columnBelow? {n : Node} (h : n.column? = none) :
    n.columnAt? = columnBelow? n.children := by
  funext path
  cases path with
  | nil => exact h
  | cons i path => simp [columnAt?, columnBelow?, at?, Option.bind_assoc]

theorem exists_of_columnBelow? {nodes : List Node} {path : List Nat} {name : Text}
    (h : columnBelow? nodes path = some name) :
    ∃ i rest n, path = i :: rest ∧ nodes[i]? = some n ∧ n.columnAt? rest = some name := by
  cases path with
  | nil => cases h
  | cons i rest =>
    obtain ⟨n, hn, hname⟩ := Option.bind_eq_some_iff.1 h
    exact ⟨i, rest, n, rfl, hn, hname⟩

theorem columns_eq (n : Node) :
    n.columns = n.column?.toList ++ columnsOfList n.children := by
  cases n <;> simp [columns, column?, children, columnsOfList]

theorem mem_columns_of_columnAt? {n : Node} {path : List Nat} {name : Text}
    (h : n.columnAt? path = some name) : name ∈ n.columns := by
  rw [columns_eq, List.mem_append]
  induction path generalizing n with
  | nil =>
    left
    rw [Option.mem_toList]
    exact h
  | cons i path ih =>
    right
    obtain ⟨leaf, hleaf, hname⟩ := Option.bind_eq_some_iff.1 h
    obtain ⟨child, hchild, hat⟩ := Option.bind_eq_some_iff.1 hleaf
    rw [columnsOfList_eq_flatMap, List.mem_flatMap]
    refine ⟨child, List.mem_of_getElem? hchild, ?_⟩
    rw [columns_eq, List.mem_append]
    exact ih (Option.bind_eq_some_iff.2 ⟨leaf, hat, hname⟩)

end Node

/-- Whether something is the judgement on the first of the columns that are judged at all. -/
def IsFirst {α : Type} (at? : List Nat → Option Text) (judge : Text → Option α) (x : α) : Prop :=
  ∃ path name, at? path = some name ∧ judge name = some x ∧
    ∀ earlier, earlier < path → ∀ other, at? earlier = some other → judge other = none

namespace Node

variable {α : Type} {judge : Text → Option α} {x : α}

theorem isFirst_cons {n : Node} (rest : List Node) (h : IsFirst n.columnAt? judge x) :
    IsFirst (columnBelow? (n :: rest)) judge x := by
  obtain ⟨path, name, hname, hjudge, hfirst⟩ := h
  refine ⟨0 :: path, name, hname, hjudge, fun earlier hearlier other hother => ?_⟩
  obtain ⟨i, q, m, rfl, hm, hq⟩ := exists_of_columnBelow? hother
  rcases List.cons_lt_cons_iff.1 hearlier with hi | ⟨rfl, hlt⟩
  · exact absurd hi (Nat.not_lt_zero i)
  · obtain rfl := Option.some.inj hm
    exact hfirst q hlt other hq

theorem isFirst_cons_of_silent {n : Node} {rest : List Node}
    (hn : ∀ name ∈ n.columns, judge name = none) (h : IsFirst (columnBelow? rest) judge x) :
    IsFirst (columnBelow? (n :: rest)) judge x := by
  obtain ⟨path, name, hname, hjudge, hfirst⟩ := h
  obtain ⟨i, q, m, rfl, hm, hq⟩ := exists_of_columnBelow? hname
  refine ⟨(i + 1) :: q, name, hname, hjudge, fun earlier hearlier other hother => ?_⟩
  obtain ⟨j, p, l, rfl, hl, hp⟩ := exists_of_columnBelow? hother
  cases j with
  | zero =>
    obtain rfl := Option.some.inj hl
    exact hn other (mem_columns_of_columnAt? hp)
  | succ j =>
    refine hfirst (j :: p) ?_ other hother
    simpa [List.cons_lt_cons_iff] using hearlier

theorem isFirst_columnsOfList {nodes : List Node}
    (ih : ∀ n ∈ nodes, n.columns.findSome? judge = some x → IsFirst n.columnAt? judge x)
    (h : (columnsOfList nodes).findSome? judge = some x) :
    IsFirst (columnBelow? nodes) judge x := by
  induction nodes with
  | nil => cases h
  | cons n rest hrest =>
    rw [columnsOfList, List.findSome?_append, Option.or_eq_some_iff] at h
    rcases h with hfirst | ⟨hnone, hlater⟩
    · exact isFirst_cons rest (ih n List.mem_cons_self hfirst)
    · have htail := hrest (fun m hm => ih m (List.mem_cons_of_mem n hm)) hlater
      exact isFirst_cons_of_silent (List.findSome?_eq_none_iff.1 hnone) htail

/-- The columns of a tree stand in the order of its positions. -/
theorem isFirst_columns {n : Node} (h : n.columns.findSome? judge = some x) :
    IsFirst n.columnAt? judge x := by
  induction n using Node.induct with
  | group op children ih =>
    rw [columnAt?_eq_columnBelow? rfl]
    exact isFirst_columnsOfList ih h
  | not child ih =>
    rw [columnAt?_eq_columnBelow? rfl]
    refine isFirst_columnsOfList (fun n hn hsome => ?_) ?_
    · obtain rfl := List.mem_singleton.1 hn
      exact ih hsome
    · simpa [children, columnsOfList, columns] using h
  | compare c =>
    have hjudge : judge c.column = some x := by simpa [columns] using h
    exact ⟨[], c.column, rfl, hjudge, fun earlier hearlier => absurd hearlier (List.not_lt_nil _)⟩
  | between column lower upper =>
    have hjudge : judge column = some x := by simpa [columns] using h
    exact ⟨[], column, rfl, hjudge, fun earlier hearlier => absurd hearlier (List.not_lt_nil _)⟩
  | ids list => cases h
  | malformed why => cases h

theorem mem_columns_iff {n : Node} {name : Text} :
    name ∈ n.columns ↔ ∃ part : Node, part.IsPart n ∧ part.column? = some name := by
  constructor
  · intro hmem
    induction n using Node.induct with
    | group op children ih =>
      rw [columns, columnsOfList_eq_flatMap, List.mem_flatMap] at hmem
      obtain ⟨child, hchild, hname⟩ := hmem
      obtain ⟨part, hpart, hcolumn⟩ := ih child hchild hname
      exact ⟨part, .child hchild hpart, hcolumn⟩
    | not child ih =>
      obtain ⟨part, hpart, hcolumn⟩ := ih hmem
      exact ⟨part, .negated hpart, hcolumn⟩
    | compare c => exact ⟨_, .self _, by rw [List.mem_singleton.1 hmem]; rfl⟩
    | between column lower upper => exact ⟨_, .self _, by rw [List.mem_singleton.1 hmem]; rfl⟩
    | ids list => cases hmem
    | malformed why => cases hmem
  · rintro ⟨part, hpart, hcolumn⟩
    apply hpart.columns_subset
    rw [columns_eq, hcolumn]
    exact List.mem_cons_self

end Node

namespace Filter

def columnAt? (f : Filter) (path : List Nat) : Option Text := (f.at? path).bind Node.column?

theorem columnAt?_eq (f : Filter) : f.columnAt? = Node.columnBelow? f.nodes := by
  funext path
  cases path with
  | nil => rfl
  | cons i path => exact Option.bind_assoc ..

theorem mem_columns_of_columnAt? {f : Filter} {path : List Nat} {name : Text}
    (h : f.columnAt? path = some name) : name ∈ f.columns := by
  rw [columnAt?_eq] at h
  obtain ⟨i, rest, n, -, hn, hname⟩ := Node.exists_of_columnBelow? h
  rw [columns, Node.columnsOfList_eq_flatMap, List.mem_flatMap]
  exact ⟨n, List.mem_of_getElem? hn, Node.mem_columns_of_columnAt? hname⟩

theorem mem_columns_iff {f : Filter} {name : Text} :
    name ∈ f.columns ↔ ∃ part, f.HasPart part ∧ part.column? = some name := by
  simp only [columns, Node.columnsOfList_eq_flatMap, List.mem_flatMap, Node.mem_columns_iff,
    HasPart]
  grind

end Filter

/-! ## The check -/

namespace Columns

variable {cs : Columns} {f : Filter}

/-- Whether a column is the first one in a filter that may not be used, and why. -/
def RefusesFirst (cs : Columns) (f : Filter) (name : Text) (why : ColumnFault) : Prop :=
  ∃ path, f.columnAt? path = some name ∧ cs.Refuses name why ∧
    ∀ earlier, earlier < path → ∀ other, f.columnAt? earlier = some other → cs.Allows other

theorem firstFault?_eq_none_iff :
    cs.firstFault? f = none ↔
      ∀ part, f.HasPart part → ∀ name, part.column? = some name → cs.Allows name := by
  simp only [firstFault?, List.findSome?_eq_none_iff, Option.map_eq_none_iff, fault?_eq_none_iff,
    Filter.mem_columns_iff]
  grind

theorem refusesFirst_of_firstFault? {name : Text} {why : ColumnFault}
    (h : cs.firstFault? f = some (name, why)) : cs.RefusesFirst f name why := by
  have hfirst := Node.isFirst_columnsOfList (fun _ _ => Node.isFirst_columns) h
  rw [← Filter.columnAt?_eq] at hfirst
  obtain ⟨path, other, hother, hjudge, hearlier⟩ := hfirst
  obtain ⟨fault, hfault, heq⟩ := Option.map_eq_some_iff.1 hjudge
  obtain ⟨rfl, rfl⟩ := Prod.mk.inj heq
  refine ⟨path, hother, fault?_eq_some_iff.1 hfault, fun earlier hlt column hcolumn => ?_⟩
  exact fault?_eq_none_iff.1 (Option.map_eq_none_iff.1 (hearlier earlier hlt column hcolumn))

theorem Refuses.not_allows {name : Text} {why : ColumnFault} (h : cs.Refuses name why) :
    ¬ cs.Allows name := by
  intro hallows
  have hsome := fault?_eq_some_iff.2 h
  rw [fault?_eq_none_iff.2 hallows] at hsome
  cases hsome

theorem RefusesFirst.unique {name other : Text} {why what : ColumnFault}
    (h : cs.RefusesFirst f name why) (h' : cs.RefusesFirst f other what) :
    name = other ∧ why = what := by
  obtain ⟨path, hname, hwhy, hfirst⟩ := h
  obtain ⟨path', hother, hwhat, hfirst'⟩ := h'
  have hpath : path = path' := by
    rcases lt_trichotomy path path' with hlt | heq | hlt
    · exact absurd (hfirst' path hlt name hname) hwhy.not_allows
    · exact heq
    · exact absurd (hfirst path' hlt other hother) hwhat.not_allows
  subst hpath
  obtain rfl := Option.some.inj (hname.symm.trans hother)
  exact ⟨rfl, Option.some.inj ((fault?_eq_some_iff.2 hwhy).symm.trans (fault?_eq_some_iff.2 hwhat))⟩

theorem firstFault?_eq_some_iff {name : Text} {why : ColumnFault} :
    cs.firstFault? f = some (name, why) ↔ cs.RefusesFirst f name why := by
  refine ⟨refusesFirst_of_firstFault?, fun h => ?_⟩
  cases hfault : cs.firstFault? f with
  | none =>
    obtain ⟨path, hname, hwhy, -⟩ := h
    obtain ⟨part, hpart, hcolumn⟩ := Filter.mem_columns_iff.1 (Filter.mem_columns_of_columnAt? hname)
    exact absurd (firstFault?_eq_none_iff.1 hfault part hpart name hcolumn) hwhy.not_allows
  | some found =>
    obtain ⟨other, what⟩ := found
    obtain ⟨rfl, rfl⟩ := h.unique (refusesFirst_of_firstFault? hfault)
    rfl

end Columns
end MapQuery
