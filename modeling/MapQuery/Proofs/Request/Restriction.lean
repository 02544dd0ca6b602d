import MapQuery.Proofs.Dialect.Leaves
import MapQuery.Request.Compiled

/-!
# What compiled queries restrict

The truth of what a layer selects, given that of its leaves, is said by its filter trees and areas
alone; parts with nothing to say are passed over. The filter of the compiled query has that truth.
-/

set_option autoImplicit false

namespace MapQuery

/-- Whether a comparison has the literal that it needs. -/
def Comparison.isComplete (c : Comparison) : Bool :=
  c.literal.isSome || !c.operator.takesLiteral

namespace Node

mutual

/-- The truth of a node whose leaves are named by their texts; `none` if no part of it says
anything. -/
def holds? (w : Writer) (v : Text → Bool) : Node → Option Bool
  | .group op children => op.holds? (holdsOfList? w v children)
  | .not child => (child.holds? w v).map (!·)
  | .compare c => if c.isComplete then some (v (leafText (w.comparison c))) else none
  | .between column lower upper => some (v (leafText (w.between column lower upper)))
  | .ids list => if list.isEmpty then none else some (v (leafText (w.ids list)))
  | .malformed _ => none

def holdsOfList? (w : Writer) (v : Text → Bool) : List Node → List (Option Bool)
  | [] => []
  | n :: rest => n.holds? w v :: holdsOfList? w v rest

end

end Node

/-- The truth of a filter that a layer selects; a filter that may not be used says nothing. -/
def ChosenFilter.holds? (w : Writer) (columns : Option Columns) (v : Text → Bool)
    (f : ChosenFilter) : Option Bool :=
  match columns.bind fun cs => cs.firstFault? f.filter with
  | some _ => none
  | none => f.group.holds? (Node.holdsOfList? w v f.filter.nodes)

namespace Resolution

variable (v : Text → Bool) (r : Resolution)

def filtersHold (w : Writer) (columns : Option Columns) : Bool :=
  (r.group.holds? (r.filters.map fun f => f.holds? w columns v)).getD true

/-- The truth of the areas of a layer: one of the included ones is met, if there are any, and none
of the excluded ones. -/
def areasHold (column : Text) : Bool :=
  (r.included.isEmpty ||
    r.included.any fun a => v (leafText (Text.paren (CqlText.intersects column a.shape)))) &&
  r.excluded.all fun a => v (leafText (PredicateText.negate (CqlText.intersects column a.shape)))

/-- The truth of what a layer selects; only one of the text languages has predicates for areas. -/
def holds (d : Dialect) (o : CompileOptions) : Bool :=
  match d with
  | .cqlText => r.areasHold v o.geometryColumn && r.filtersHold v (d.grammar o).writer o.columns
  | _ => r.filtersHold v (d.grammar o).writer o.columns

end Resolution

/-- The truth of a filter parameter. Without one, or with the clause that everything satisfies,
nothing is restricted. -/
def parameterHolds? (v : Text → Bool) : Option Text → Option Bool
  | none => some true
  | some t =>
    if t = WhereClause.matchAll then some true else (Predicate.ofText? t).map (·.holds v)

variable {v : Text → Bool}

theorem clause_comparison {w : Writer} (hw : w.IsTextual) {c : Comparison}
    (hcolumn : c.column.Plain) :
    Clause v (w.comparison c)
      (if c.isComplete then some (v (leafText (w.comparison c))) else none) := by
  obtain ⟨operator, column, literal, pattern⟩ := c
  cases operator with
  | isNull => cases literal <;> exact .leaf (hw.nullCheck false hcolumn)
  | isNotNull => cases literal <;> exact .leaf (hw.nullCheck true hcolumn)
  | relation r =>
    cases literal with
    | none => exact .empty
    | some l => exact .leaf (hw.relate r l hcolumn)
  | like =>
    cases literal with
    | none => exact .empty
    | some l => exact .leaf (hw.like false l pattern hcolumn)
  | notLike =>
    cases literal with
    | none => exact .empty
    | some l => exact .leaf (hw.like true l pattern hcolumn)

mutual

theorem clause_node {w : Writer} (hw : w.IsTextual) :
    ∀ n : Node, (∀ c ∈ n.columns, c.Plain) → Clause v (w.node n) (n.holds? w v)
  | .group op children, h => Clause.joinParts hw.join (clauses_nodes hw children h)
  | .not child, h => by
    have hnegated := (clause_node hw child h).negate
    rw [← hw.negate] at hnegated
    exact hnegated
  | .compare c, h => clause_comparison hw (h c.column (by simp [Node.columns]))
  | .between column lower upper, h =>
    .leaf (hw.between lower upper (h column (by simp [Node.columns])))
  | .ids list, _ => by
    simp only [Writer.node, Node.holds?]
    split
    · exact .empty
    · exact .leaf (hw.ids list)
  | .malformed _, _ => .empty

theorem clauses_nodes {w : Writer} (hw : w.IsTextual) :
    ∀ list : List Node, (∀ c ∈ Node.columnsOfList list, c.Plain) →
      List.Forall₂ (Clause v) (w.nodes list) (Node.holdsOfList? w v list)
  | [], _ => .nil
  | n :: rest, h =>
    .cons (clause_node hw n fun c hc => h c (List.mem_append_left _ hc))
      (clauses_nodes hw rest fun c hc => h c (List.mem_append_right _ hc))

end

/-- A grammar of predicate texts: they are merged by their parentheses, and ids are predicates like
any other. -/
structure Grammar.IsTextual (g : Grammar) : Prop where
  writer : g.writer.IsTextual
  merge : g.merge = Junction.merge
  ids : g.idsStandAlone = false

theorem clause_contribution {g : Grammar} (hg : g.IsTextual) (columns : Option Columns)
    (r : Resolution) {f : ChosenFilter} (hcolumns : ∀ c ∈ f.filter.columns, c.Plain) :
    Clause v (f.contribution g columns r).1 (f.holds? g.writer columns v) := by
  unfold ChosenFilter.contribution ChosenFilter.refusal? ChosenFilter.holds?
  cases columns.bind fun cs => cs.firstFault? f.filter with
  | some fault => exact .empty
  | none =>
    simp only [hg.ids, Bool.false_and, Bool.false_eq_true, if_false]
    rw [Grammar.fragment, hg.merge]
    exact .merge (clauses_nodes hg.writer f.filter.nodes hcolumns)

theorem Junction.merge_filter (op : Connective) (texts : List Text) :
    merge op (texts.filter (!·.isEmpty)) = merge op texts := by
  have hmembers :
      (texts.filter (!·.isEmpty)).flatMap (members op) = texts.flatMap (members op) := by
    induction texts with
    | nil => rfl
    | cons t rest ih =>
      cases t with
      | nil => simpa [members_of_blank Text.blank_nil] using ih
      | cons c t => simp [ih]
  rw [merge, hmembers, merge]

theorem clause_filters {g : Grammar} (hg : g.IsTextual) (columns : Option Columns)
    (r : Resolution) (hcolumns : ∀ f ∈ r.filters, ∀ c ∈ f.filter.columns, c.Plain) :
    Clause v
      (g.merge r.group (((r.filters.map fun f => f.contribution g columns r).map Prod.fst).filter
        (!·.isEmpty)))
      (r.group.holds? (r.filters.map fun f => f.holds? g.writer columns v)) := by
  rw [hg.merge, Junction.merge_filter, List.map_map]
  refine .merge (List.forall₂_map_left_iff.2 (List.forall₂_map_right_iff.2 ?_))
  exact List.forall₂_same.2 fun f hf => clause_contribution hg columns r (hcolumns f hf)

theorem clauses_areas {column : Text} (hcolumn : column.Plain) (r : Resolution) :
    List.Forall₂ (Clause v) (CqlText.spatial column r).predicates
      (Connective.or.holds? (r.included.map fun a =>
          some (v (leafText (Text.paren (CqlText.intersects column a.shape))))) ::
        r.excluded.map fun a =>
          some (v (leafText (PredicateText.negate (CqlText.intersects column a.shape))))) := by
  refine .cons (.merge ?_) ?_ <;>
    refine List.forall₂_map_left_iff.2 (List.forall₂_map_right_iff.2 (List.forall₂_same.2 ?_))
  · exact fun a _ => .leaf (CqlText.isLeaf_intersects hcolumn a.shape)
  · exact fun a _ => .leaf (CqlText.isLeaf_negated_intersects hcolumn a.shape)

theorem parameterHolds?_of_isGroup {s : Text} {b : Bool}
    (hgroup : IsGroup .restored v (Text.paren s) b) :
    parameterHolds? v (some (Quotation.restore (Text.paren s))) = some b := by
  obtain ⟨k, hk, htext, rfl⟩ := hgroup
  have hread := Level.ofText?_paren hk
  have hmeaning : (Level.empty.before k.group).meaning = k.meaning := rfl
  rw [Rendering.text_restored] at htext
  have hne : k.group.text ≠ WhereClause.matchAll := by
    simp [Level.group, Text.paren, WhereClause.matchAll]
  rw [htext, parameterHolds?, if_neg hne, Predicate.ofText?]
  simp only [Level.group] at hread ⊢
  rw [hread, ← hmeaning]
  rfl

theorem parameterHolds?_cqlText {t : Text} {o : Option Bool} (h : Clause v t o) :
    parameterHolds? v (PredicateText.finish (Quotation.restore t)) = some (o.getD true) := by
  cases h with
  | empty => rfl
  | group _ hgroup => exact parameterHolds?_of_isGroup hgroup

theorem parameterHolds?_whereClause {t : Text} {o : Option Bool} (h : Clause v t o) :
    parameterHolds? v (some (WhereClause.finish (Quotation.restore t))) = some (o.getD true) := by
  cases h with
  | empty =>
    have hempty : WhereClause.finish (Quotation.restore []) = WhereClause.matchAll := rfl
    rw [parameterHolds?, hempty, if_pos rfl]
    rfl
  | group _ hgroup => exact parameterHolds?_of_isGroup hgroup

/-- Before it is finished, the filter of a compiled query is a clause of what the layer selects. -/
theorem exists_clause_of_compileQuery {d : Dialect} (hd : d ≠ .filterMarkup) {o : CompileOptions}
    {r : Resolution} (hcolumns : ∀ f ∈ r.filters, ∀ c ∈ f.filter.columns, c.Plain)
    (hgeometry : o.geometryColumn.Plain) (hid : o.idColumn.Plain) (v : Text → Bool) :
    ∃ t truth, Clause v t truth ∧ truth.getD true = r.holds v d o ∧
      (compileQuery d o r).filter = (d.grammar o).finish (Quotation.restore t) := by
  cases d with
  | filterMarkup => exact absurd rfl hd
  | cqlText =>
    have hg : (CqlText.grammar o).IsTextual := ⟨CqlText.isTextual_writer, rfl, rfl⟩
    have hfilters := clause_filters (v := v) hg o.columns r hcolumns
    have hareas := clauses_areas (v := v) hgeometry r
    have hall : Clause v _ (Connective.and.holds? _) :=
      .merge (List.rel_append hareas (.cons hfilters .nil))
    refine ⟨_, _, hall, ?_, rfl⟩
    rw [Connective.getD_holds?_and]
    simp only [List.all_append, List.all_cons, List.all_nil, List.all_map, Bool.and_true,
      Connective.getD_holds?_or]
    rfl
  | whereClause =>
    have hg : (WhereClause.grammar o).IsTextual := ⟨WhereClause.isTextual_writer hid, rfl, rfl⟩
    have hfilters := clause_filters (v := v) hg o.columns r hcolumns
    have hall : Clause v _ (Connective.and.holds? _) := .merge (.cons hfilters .nil)
    refine ⟨_, _, hall, ?_, rfl⟩
    rw [Connective.getD_holds?_and]
    simp only [List.all_cons, List.all_nil, Bool.and_true]
    rfl

/-- The filter of a compiled query of a text language is read as what the layer selects. -/
theorem compileQuery_holds {d : Dialect} (hd : d ≠ .filterMarkup) {o : CompileOptions}
    {r : Resolution} (hcolumns : ∀ f ∈ r.filters, ∀ c ∈ f.filter.columns, c.Plain)
    (hgeometry : o.geometryColumn.Plain) (hid : o.idColumn.Plain) (v : Text → Bool) :
    parameterHolds? v (compileQuery d o r).filter = some (r.holds v d o) := by
  obtain ⟨t, truth, hclause, htruth, hfilter⟩ :=
    exists_clause_of_compileQuery hd hcolumns hgeometry hid v
  rw [hfilter, ← htruth]
  cases d with
  | filterMarkup => exact absurd rfl hd
  | cqlText => exact parameterHolds?_cqlText hclause
  | whereClause => exact parameterHolds?_whereClause hclause

/-- A literal that looks like a run of groups is read as one leaf, and a node without a child is
passed over. -/
theorem compileQuery_holds_of_disguised_literal :
    let equals (column literal : Text) : Node :=
      .comparing (.relation .equals) column (.text literal)
    let nodes : List Node :=
      [.not (.group .and [equals "A" "x) OR (y", equals "B" "1"]), .group .or [], equals "C" "it's"]
    let r : Resolution := ⟨"L", [], [], [⟨"F", ⟨nodes⟩, .or⟩], none, []⟩
    let v (t : Text) : Bool := t == "A = 'x) OR (y'"
    (compileQuery .cqlText {} r).filter =
        some "((NOT ((A = 'x) OR (y') AND (B = 1))) OR (C = 'it''s'))" ∧
      parameterHolds? v (compileQuery .cqlText {} r).filter = some true := by
  intro equals nodes r v
  refine ⟨by decide, ?_⟩
  have hholds : r.holds v .cqlText {} = true := by decide
  rw [compileQuery_holds (by decide) (by decide) (by decide) (by decide), hholds]

end MapQuery
