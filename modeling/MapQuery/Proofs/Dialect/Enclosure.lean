import MapQuery.Dialect.Basic
import MapQuery.Proofs.Dialect.Leaves
import MapQuery.Proofs.Filter.Reloading

/-!
# Nodes as groups

Scans for groups rely on what the text languages write for a node: nothing, or one group from the
first to the last character. Literals never stand in the way of that, whatever they hold. Columns
are written as they are, so theirs are the only parentheses on which it depends.
-/

set_option autoImplicit false

namespace MapQuery

namespace Text

/-- Whether a text is empty or one group from its first to its last character. -/
def IsEmptyOrGroup (t : Text) : Prop := t = [] ∨ Split.isSingleGroup t = true

instance (t : Text) : Decidable t.IsEmptyOrGroup := inferInstanceAs (Decidable (_ ∨ _))

theorem isEmptyOrGroup_iff {t : Text} :
    t.IsEmptyOrGroup ↔ t = [] ∨ ∃ s, s.IsNested ∧ t = paren s :=
  or_congr_right Split.isSingleGroup_iff

theorem isEmptyOrGroup_paren {s : Text} : (paren s).IsEmptyOrGroup ↔ s.IsNested := by
  rw [isEmptyOrGroup_iff]
  constructor
  · rintro (h | ⟨u, hu, h⟩)
    · cases h
    · have hinside := congrArg Split.inside h
      rw [Split.inside_paren, Split.inside_paren] at hinside
      rw [hinside]
      exact hu
  · intro h
    exact .inr ⟨s, h, rfl⟩

theorem IsEmptyOrGroup.isNested {t : Text} (h : t.IsEmptyOrGroup) : t.IsNested := by
  rcases isEmptyOrGroup_iff.1 h with rfl | ⟨s, hs, rfl⟩
  · rfl
  · exact hs.paren

/-- Where the rest is nested, a group hangs on what it starts with. -/
theorem isEmptyOrGroup_paren_append {s rest : Text} (hrest : rest.IsNested) :
    (paren (s ++ rest)).IsEmptyOrGroup ↔ s.IsNested :=
  isEmptyOrGroup_paren.trans (isNested_append_iff_left hrest)

end Text

/-- The text in which a node itself names a column, where a column to be matched with a pattern is
written in some way of its own and ids are selected by a column. -/
def Node.columnText? (matched : Text → Text) (idColumn : Text) : Node → Option Text
  | .compare c => some (if c.operator.isLike then matched c.column else c.column)
  | .between column _ _ => some column
  | .ids list => if list.isEmpty then none else some idColumn
  | .group _ _ | .not _ | .malformed _ => none

/-- The text in which a node of a text language names a column. Where clauses match patterns with a
column in parentheses; only they have a column for ids. -/
def Dialect.columnText? (d : Dialect) (o : CompileOptions) : Node → Option Text :=
  match d with
  | .whereClause => Node.columnText? Text.paren o.idColumn
  | .cqlText | .filterMarkup => Node.columnText? id []

/-- Whether what a writer writes is a group exactly if the parentheses of the column match. -/
structure Writer.Encloses (w : Writer) (matched : Text → Text) (idColumn : Text) : Prop where
  join : w.join = PredicateText.join
  negate : w.negate = PredicateText.negate
  nullCheck : ∀ negated column, (w.nullCheck negated column).IsEmptyOrGroup ↔ column.IsNested
  relate : ∀ r column l, (w.relate r column l).IsEmptyOrGroup ↔ column.IsNested
  like : ∀ negated column l style,
    (w.like negated column l style).IsEmptyOrGroup ↔ (matched column).IsNested
  between : ∀ column lower upper, (w.between column lower upper).IsEmptyOrGroup ↔ column.IsNested
  ids : ∀ list, (w.ids list).IsEmptyOrGroup ↔ idColumn.IsNested

/-! ## The leaves of the text languages -/

namespace PredicateText

variable {truth : Bool → Text} (htruth : ∀ b, (truth b).Plain)
include htruth

theorem isEmptyOrGroup_relate (r : Relation) (column : Text) (l : Literal) :
    (relate truth r column l).IsEmptyOrGroup ↔ column.IsNested := by
  have hsymbol : Text.IsNested (" " ++ r.symbol ++ " ") := by cases r <;> decide
  have hrest := hsymbol.append (segment_literal htruth l).isNested
  have hgroup := Text.isEmptyOrGroup_paren_append (s := column) hrest
  simpa only [relate, List.append_assoc] using hgroup

theorem isEmptyOrGroup_between (column : Text) (lower upper : Literal) :
    (between truth column lower upper).IsEmptyOrGroup ↔ column.IsNested := by
  have hbetween : Text.IsNested " BETWEEN " := by decide
  have hand : Text.IsNested " AND " := by decide
  have hlower := (segment_literal htruth lower).isNested
  have hupper := (segment_literal htruth upper).isNested
  have hrest := ((hbetween.append hlower).append hand).append hupper
  have hgroup := Text.isEmptyOrGroup_paren_append (s := column) hrest
  simpa only [between, List.append_assoc] using hgroup

end PredicateText

namespace CqlText

theorem isEmptyOrGroup_nullCheck (negated : Bool) (column : Text) :
    (nullCheck negated column).IsEmptyOrGroup ↔ column.IsNested := by
  apply Text.isEmptyOrGroup_paren_append
  cases negated <;> decide

theorem isEmptyOrGroup_like (negated : Bool) (column : Text) (l : Literal) (style : PatternStyle) :
    (like negated column l style).IsEmptyOrGroup ↔ column.IsNested := by
  have hkeyword : Text.IsNested (if negated then " NOT ILIKE " else " ILIKE ") := by
    cases negated <;> decide
  have hrest := hkeyword.append (Segment.quote (style.percentText l.rawText)).isNested
  have hgroup := Text.isEmptyOrGroup_paren_append (s := column) hrest
  rw [← List.append_assoc] at hgroup
  exact hgroup

theorem isEmptyOrGroup_ids (list : List Text) : (ids list).IsEmptyOrGroup := by
  obtain ⟨a, b, hids, ha, hb, -⟩ := isLeaf_ids list
  rw [hids, Text.isEmptyOrGroup_paren]
  exact ((Segment.of_plain ha).append hb).isNested

theorem encloses_writer : writer.Encloses id [] where
  join := rfl
  negate := rfl
  nullCheck := isEmptyOrGroup_nullCheck
  relate := PredicateText.isEmptyOrGroup_relate plain_truth
  like := isEmptyOrGroup_like
  between := PredicateText.isEmptyOrGroup_between plain_truth
  ids list := iff_of_true (isEmptyOrGroup_ids list) rfl

end CqlText

namespace WhereClause

theorem isEmptyOrGroup_nullCheck (negated : Bool) (column : Text) :
    (nullCheck negated column).IsEmptyOrGroup ↔ column.IsNested := by
  apply Text.isEmptyOrGroup_paren_append
  cases negated <;> decide

theorem isEmptyOrGroup_like (negated : Bool) (column : Text) (l : Literal) (style : PatternStyle) :
    (like negated column l style).IsEmptyOrGroup ↔ (Text.paren column).IsNested := by
  have hupper : Text.IsNested "UPPER" := by decide
  have hkeyword : Text.IsNested (if negated then " not like " else " like ") := by
    cases negated <;> decide
  have hvalue := (Segment.quote (sentPattern (style.percentText l.rawText))).isNested
  have hgroup := Text.isEmptyOrGroup_paren_append (s := "UPPER" ++ Text.paren column)
    (hkeyword.append hvalue)
  rw [← List.append_assoc, Text.isNested_append_iff_right hupper] at hgroup
  exact hgroup

theorem isEmptyOrGroup_ids (idColumn : Text) (list : List Text) :
    (ids idColumn list).IsEmptyOrGroup ↔ idColumn.IsNested := by
  have hin : Text.IsNested " IN " := by decide
  have hvalues : Text.IsNested (PredicateText.valueList
      (list.map fun id => PredicateText.literal truth (.text id))) := by
    refine (PredicateText.segment_valueList ?_).isNested
    intro t ht
    obtain ⟨id, -, rfl⟩ := List.mem_map.1 ht
    exact PredicateText.segment_literal plain_truth (.text id)
  have hgroup := Text.isEmptyOrGroup_paren_append (s := idColumn) (hin.append hvalues)
  rw [← List.append_assoc] at hgroup
  exact hgroup

theorem encloses_writer (idColumn : Text) : (writer idColumn).Encloses Text.paren idColumn where
  join := rfl
  negate := rfl
  nullCheck := isEmptyOrGroup_nullCheck
  relate := PredicateText.isEmptyOrGroup_relate plain_truth
  like := isEmptyOrGroup_like
  between := PredicateText.isEmptyOrGroup_between plain_truth
  ids := isEmptyOrGroup_ids idColumn

end WhereClause

/-! ## Trees -/

namespace Node

variable {n m : Node}

theorem IsPart.isComplete (h : n.IsPart m) (hm : m.IsComplete) : n.IsComplete := by
  induction h with
  | self => exact hm
  | child hmem _ ih => exact ih (areComplete_iff.1 hm _ hmem)
  | negated _ ih => exact ih hm

end Node

namespace Writer.Encloses

variable {w : Writer} {matched : Text → Text} {idColumn : Text} (hw : w.Encloses matched idColumn)
include hw

theorem comparison {c : Comparison} (hliteral : c.literal.isSome = c.operator.takesLiteral) :
    (w.comparison c).IsEmptyOrGroup ↔
      (if c.operator.isLike then matched c.column else c.column).IsNested := by
  obtain ⟨op, column, literal, pattern⟩ := c
  cases literal with
  | none =>
    cases op with
    | isNull => exact hw.nullCheck false column
    | isNotNull => exact hw.nullCheck true column
    | _ => cases hliteral
  | some l =>
    cases op with
    | relation r => exact hw.relate r column l
    | like => exact hw.like false column l pattern
    | notLike => exact hw.like true column l pattern
    | _ => cases hliteral

/-- What has no parts of its own is a group exactly if the column that it names is nested. -/
theorem leaf {n : Node} (hn : n.IsComplete) (hleaf : n.columnText? matched idColumn ≠ none) :
    (w.node n).IsEmptyOrGroup ↔ ∀ t ∈ n.columnText? matched idColumn, t.IsNested := by
  cases n with
  | compare c => simpa [Node.columnText?, Writer.node] using hw.comparison hn.2
  | between column lower upper =>
    simpa [Node.columnText?, Writer.node] using hw.between column lower upper
  | ids list =>
    cases list with
    | nil => exact absurd rfl hleaf
    | cons id rest => simpa [Node.columnText?, Writer.node] using hw.ids (id :: rest)
  | group op children => exact absurd rfl hleaf
  | not child => exact absurd rfl hleaf
  | malformed why => exact absurd rfl hleaf

theorem joinParts (op : Connective) {parts : List Text} (h : ∀ t ∈ parts, t.IsEmptyOrGroup) :
    (w.joinParts op parts).IsEmptyOrGroup := by
  have hkept : ∀ t ∈ parts.filter (!·.isEmpty), t.IsEmptyOrGroup := by
    intro t ht
    exact h t (List.mem_filter.1 ht).1
  unfold Writer.joinParts
  split
  · exact .inl rfl
  · next part hpart => exact hkept part (hpart ▸ List.mem_singleton_self part)
  · have hseparator : Text.IsNested (" " ++ op.keyword ++ " ") := by cases op <;> decide
    rw [hw.join, PredicateText.join, Text.isEmptyOrGroup_paren]
    exact .joined hseparator fun t ht => (hkept t ht).isNested

theorem negated {t : Text} (h : t.IsEmptyOrGroup) :
    Text.IsEmptyOrGroup (if t.isEmpty then [] else w.negate t) := by
  split
  · exact .inl rfl
  · have hnot : Text.IsNested "NOT " := by decide
    rw [hw.negate, PredicateText.negate, Text.isEmptyOrGroup_paren]
    exact hnot.append h.isNested

/-- A tree is empty or a group if all the columns that its parts name are nested. -/
theorem node {n : Node} (hn : n.IsComplete)
    (h : ∀ m : Node, m.IsPart n → ∀ t ∈ m.columnText? matched idColumn, t.IsNested) :
    (w.node n).IsEmptyOrGroup := by
  induction n using Node.induct with
  | group op children ih =>
    rw [Writer.node, Writer.nodes_eq_map]
    apply hw.joinParts
    intro t ht
    obtain ⟨child, hchild, rfl⟩ := List.mem_map.1 ht
    apply ih child hchild (Node.areComplete_iff.1 hn child hchild)
    intro m hm
    exact h m (.child hchild hm)
  | not child ih =>
    apply hw.negated
    apply ih hn
    intro m hm
    exact h m (.negated hm)
  | compare c => exact (hw.leaf hn nofun).2 (h _ (.self _))
  | between column lower upper => exact (hw.leaf hn nofun).2 (h _ (.self _))
  | ids list =>
    cases list with
    | nil => exact .inl rfl
    | cons id rest => exact (hw.leaf hn nofun).2 (h _ (.self _))
  | malformed why => exact .inl rfl

end Writer.Encloses

theorem Dialect.encloses {d : Dialect} (hd : d ≠ .filterMarkup) (o : CompileOptions) :
    ∃ matched idColumn, (d.grammar o).writer.Encloses matched idColumn ∧
      d.columnText? o = Node.columnText? matched idColumn := by
  cases d with
  | filterMarkup => exact absurd rfl hd
  | cqlText => exact ⟨_, _, CqlText.encloses_writer, rfl⟩
  | whereClause => exact ⟨_, _, WhereClause.encloses_writer o.idColumn, rfl⟩

namespace Filter

variable {f : Filter} {n : Node}

theorem isComplete_of_ofText? {t : Text} (h : ofText? t = .ok f) : f.IsComplete := by
  unfold ofText? at h
  split at h
  · cases h
  · next v _ =>
    cases hv : ofValue v with
    | error misfit => simp [hv, Except.mapError] at h
    | ok g =>
      obtain rfl : g = f := by simpa [hv, Except.mapError] using h
      exact isComplete_of_ofValue hv

theorem HasPart.isComplete (h : f.HasPart n) (hf : f.IsComplete) : n.IsComplete := by
  obtain ⟨m, hm, hpart⟩ := h
  exact hpart.isComplete (hf m hm)

theorem HasPart.trans {m : Node} (h : f.HasPart n) (hm : m.IsPart n) : f.HasPart m := by
  obtain ⟨top, htop, hpart⟩ := h
  exact ⟨top, htop, hm.trans hpart⟩

/-- Columns of a filter that are nested are nested wherever one of its nodes names them. -/
theorem HasPart.isNested_columnText? (h : f.HasPart n) {o : CompileOptions}
    (hcolumns : ∀ column ∈ f.columns, column.IsNested)
    (hid : f.selectsIds = true → o.idColumn.IsNested) (d : Dialect) :
    ∀ t ∈ d.columnText? o n, t.IsNested := by
  obtain ⟨top, htop, hpart⟩ := h
  have hown : ∀ column ∈ n.columns, column.IsNested := by
    intro column hcolumn
    apply hcolumns
    rw [Filter.columns, Node.columnsOfList_eq_flatMap, List.mem_flatMap]
    exact ⟨top, htop, hpart.columns_subset hcolumn⟩
  have hids : n.selectsIds = true → o.idColumn.IsNested := by
    intro hn
    apply hid
    rw [Filter.selectsIds, Node.anySelectsIds_eq_any, List.any_eq_true]
    exact ⟨top, htop, hpart.selectsIds hn⟩
  intro t ht
  cases n with
  | compare c =>
    have hcolumn := hown c.column (by simp [Node.columns])
    cases d with
    | whereClause =>
      obtain rfl : (if c.operator.isLike then Text.paren c.column else c.column) = t :=
        Option.some.inj ht
      split
      · exact hcolumn.paren
      · exact hcolumn
    | cqlText | filterMarkup =>
      obtain rfl : (if c.operator.isLike then id c.column else c.column) = t := Option.some.inj ht
      rw [id, ite_self]
      exact hcolumn
  | between column lower upper =>
    have hcolumn := hown column (by simp [Node.columns])
    cases d <;> exact Option.some.inj ht ▸ hcolumn
  | ids list =>
    cases list with
    | nil => cases d <;> cases ht
    | cons id rest =>
      cases d with
      | whereClause => exact Option.some.inj ht ▸ hids rfl
      | cqlText | filterMarkup => exact Option.some.inj ht ▸ rfl
  | group op children => cases d <;> cases ht
  | not child => cases d <;> cases ht
  | malformed why => cases d <;> cases ht

/-- What the text languages write for the nodes of a filter that is read from a text is empty or one
group as long as the parentheses of its columns match. Exactly, those of every text that names a
column have to: in where clauses a column matched with a pattern has parentheses around it. -/
theorem isEmptyOrGroup_node {t : Text} (h : ofText? t = .ok f) {d : Dialect}
    (hd : d ≠ .filterMarkup) (o : CompileOptions) :
    ((∀ column ∈ f.columns, column.IsNested) → (f.selectsIds = true → o.idColumn.IsNested) →
      ∀ n, f.HasPart n → ((d.grammar o).writer.node n).IsEmptyOrGroup) ∧
    ((∀ n, f.HasPart n → ((d.grammar o).writer.node n).IsEmptyOrGroup) ↔
      ∀ n, f.HasPart n → ∀ t ∈ d.columnText? o n, t.IsNested) := by
  have hf := isComplete_of_ofText? h
  obtain ⟨matched, idColumn, hw, htext⟩ := Dialect.encloses hd o
  have hgroup : (∀ n, f.HasPart n → ∀ t ∈ d.columnText? o n, t.IsNested) →
      ∀ n, f.HasPart n → ((d.grammar o).writer.node n).IsEmptyOrGroup := by
    intro hnested n hn
    apply hw.node (hn.isComplete hf)
    intro m hm
    rw [← htext]
    exact hnested m (hn.trans hm)
  refine ⟨?_, ?_, hgroup⟩
  · intro hcolumns hid
    apply hgroup
    intro n hn
    exact hn.isNested_columnText? hcolumns hid d
  · intro hgroups n hn t ht
    rw [htext] at ht
    have hleaf : n.columnText? matched idColumn ≠ none := by
      intro hnone
      rw [hnone] at ht
      cases ht
    exact (hw.leaf (hn.isComplete hf) hleaf).1 (hgroups n hn) t ht

/-- A filter with parentheses in every literal and matching ones in a column. -/
def openLiterals : Json.Value :=
  .array [
    .object [("type", .string "Or"), ("children", .array [
      .object [("type", .string "PropertyIsLike"), ("PropertyName", .string "depth(m)"),
        ("Literal", .string "))*")],
      .object [("type", .string "Not"), ("child", .object [
        ("type", .string "PropertyIsEqualTo"), ("PropertyName", .string "kind"),
        ("Literal", .string "reef (")])]])],
    .object [("type", .string "FeatureId"), ("fids", .array [.string "reefs.1)"])]]

theorem isEmptyOrGroup_node_of_openLiterals :
    ∃ f, ofText? openLiterals.compact = .ok f ∧ ∀ n, f.HasPart n →
      ((Dialect.whereClause.grammar {}).writer.node n).IsEmptyOrGroup := by
  have hread := ofText?_compact (v := openLiterals) nofun (by decide)
  let f : Filter := ⟨[
    .group .or [
      .compare ⟨.like, "depth(m)", some (.text "))*"), {}⟩,
      .not (.compare ⟨.relation .equals, "kind", some (.text "reef ("), {}⟩)],
    .ids ["reefs.1)"]]⟩
  have hf : ofText? openLiterals.compact = .ok f := hread
  have hcolumns : ∀ column ∈ f.columns, column.IsNested := by decide
  have hid : f.selectsIds = true → Text.IsNested ({} : CompileOptions).idColumn := by decide
  exact ⟨f, hf, (isEmptyOrGroup_node hf (by decide) {}).1 hcolumns hid⟩

/-- A null check of a column with a parenthesis that nothing opens. -/
def tornColumn : Json.Value :=
  .array [.object [("type", .string "PropertyIsNull"), ("PropertyName", .string "A)")]]

/-- The closing parenthesis of a column ends the group before its time. -/
theorem not_isEmptyOrGroup_of_torn_column :
    ∃ f, ofText? tornColumn.compact = .ok f ∧ ∃ n, f.HasPart n ∧ ∀ o : CompileOptions,
      ¬ ((Dialect.cqlText.grammar o).writer.node n).IsEmptyOrGroup ∧
      ¬ ((Dialect.whereClause.grammar o).writer.node n).IsEmptyOrGroup := by
  have hread := ofText?_compact (v := tornColumn) nofun (by decide)
  refine ⟨⟨[.compare ⟨.isNull, "A)", none, {}⟩]⟩, hread, _,
    ⟨_, List.mem_singleton_self _, .self _⟩, ?_⟩
  intro o
  have hcql : (Dialect.cqlText.grammar o).writer.node (.compare ⟨.isNull, "A)", none, {}⟩) =
      "(A) IS NULL)".toList := rfl
  have hwhere : (Dialect.whereClause.grammar o).writer.node (.compare ⟨.isNull, "A)", none, {}⟩) =
      "(A) is null)".toList := rfl
  rw [hcql, hwhere]
  decide

end Filter
end MapQuery
