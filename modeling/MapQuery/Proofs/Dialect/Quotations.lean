import Mathlib.Data.List.Infix
import MapQuery.Dialect.Basic
import MapQuery.Proofs.Dialect.Leaves
import MapQuery.Proofs.Filter.Parts
import MapQuery.Proofs.Predicate.Quotations

/-!
# Quotations in filter texts

The text languages quote the literals that are neither numbers nor truth values, patterns and ids.
Every one of them is in the text of a filter, and is read from there as it was given; only the two
private characters that stand for parentheses come out as parentheses.
-/

set_option autoImplicit false

namespace MapQuery

open Quotation (Carries CarriesAll literals unquote? doubled restore)

/-! ## What is quoted -/

/-- What a literal is a quotation of, if it is written as one. -/
def Literal.quoted (l : Literal) : List Text :=
  match l.classify with
  | .text t => [t]
  | .number _ | .bool _ => []

namespace Dialect

/-- The pattern that a dialect sends for a stored one. -/
def sentPattern (d : Dialect) (l : Literal) (style : PatternStyle) : Text :=
  match d with
  | .whereClause => WhereClause.sentPattern (style.percentText l.rawText)
  | .cqlText | .filterMarkup => style.percentText l.rawText

/-- The ids of a selection that a dialect quotes. -/
def quotedIds (d : Dialect) (list : List Text) : List Text :=
  match d with
  | .cqlText => list
  | .whereClause | .filterMarkup => list.flatMap fun id => (Literal.text id).quoted

end Dialect

/-- What a dialect quotes in a comparison. -/
def Comparison.quoted (d : Dialect) (c : Comparison) : List Text :=
  match c.operator, c.literal with
  | .relation _, some l => l.quoted
  | .like, some l | .notLike, some l => [d.sentPattern l c.pattern]
  | _, _ => []

/-- What a dialect quotes in a node itself, apart from the nodes below it. -/
def Node.quoted (d : Dialect) : Node → List Text
  | .compare c => c.quoted d
  | .between _ lower upper => lower.quoted ++ upper.quoted
  | .ids list => d.quotedIds list
  | .group _ _ | .not _ | .malformed _ => []

/-- A node that quotes something has no nodes below it. -/
theorem Node.leaves_eq_of_mem_quoted {d : Dialect} {n : Node} {s : Text} (h : s ∈ n.quoted d) :
    n.leaves = [n] := by
  cases n with
  | group op children => cases h
  | not child => cases h
  | compare c => rfl
  | between column lower upper => rfl
  | ids list => rfl
  | malformed why => rfl

/-! ## What the text languages write -/

/-- Whether a writer quotes what a dialect says, as long as the columns that it writes have only
certain characters. -/
structure Writer.Quotes (w : Writer) (P : Char → Prop) (d : Dialect) (idColumn : Text) : Prop where
  join : w.join = PredicateText.join
  negate : w.negate = PredicateText.negate
  nullCheck : ∀ negated {column : Text}, (∀ c ∈ column, P c) →
    Carries P [] (w.nullCheck negated column)
  relate : ∀ r {column : Text} l, (∀ c ∈ column, P c) → Carries P l.quoted (w.relate r column l)
  like : ∀ negated {column : Text} l style, (∀ c ∈ column, P c) →
    Carries P [d.sentPattern l style] (w.like negated column l style)
  between : ∀ {column : Text} lower upper, (∀ c ∈ column, P c) →
    Carries P (lower.quoted ++ upper.quoted) (w.between column lower upper)
  ids : ∀ list, (∀ c ∈ idColumn, P c) → Carries P (d.quotedIds list) (w.ids list)

section Writers

variable {P : Char → Prop} (hP : ∀ c, c ≠ '\'' → P c)
include hP

theorem Text.forall_of_unquoted {t : Text} (h : '\'' ∉ t) : ∀ c ∈ t, P c := fun _ hc =>
  hP _ fun hquote => h (hquote ▸ hc)

theorem Quotation.Carries.of_unquoted {t : Text} (h : '\'' ∉ t) : Carries P [] t :=
  .plain (Text.forall_of_unquoted hP h)

/-- A column with a mark after it in front of what carries quotations. -/
theorem Quotation.Carries.column {column mark t : Text} {ss : List Text}
    (hcolumn : ∀ c ∈ column, P c) (hmark : '\'' ∉ mark) (hne : mark ≠ []) (h : Carries P ss t) :
    Carries P ss (column ++ mark ++ t) := by
  refine h.prepend (List.forall_mem_append.2 ⟨hcolumn, Text.forall_of_unquoted hP hmark⟩) ?_
  intro hlast
  rw [List.getLast?_append_of_ne_nil column hne] at hlast
  exact hmark (List.mem_of_getLast? hlast)

namespace PredicateText

variable {truth : Bool → Text} (htruth : ∀ b, (truth b).Plain)
include htruth

theorem carries_literal (l : Literal) : Carries P l.quoted (literal truth l) := by
  have hplain : ∀ {t : Text}, t.Plain → Carries P [] t := fun ht =>
    .of_unquoted hP (ht.not_mem (by decide))
  unfold literal Literal.quoted
  cases h : l.classify with
  | number t => exact hplain (Literal.plain_of_classify h)
  | bool b => exact hplain (htruth b)
  | text t => exact .quote t

theorem carries_relate (r : Relation) {column : Text} (l : Literal) (hcolumn : ∀ c ∈ column, P c) :
    Carries P l.quoted (relate truth r column l) := by
  have hmark : '\'' ∉ ((" " : Text) ++ r.symbol ++ (" " : Text)) := by cases r <;> decide
  have h := (Carries.column hP hcolumn hmark (by simp) (carries_literal hP htruth l)).paren hP
  simpa only [relate, List.append_assoc] using h

theorem carries_between {column : Text} (lower upper : Literal) (hcolumn : ∀ c ∈ column, P c) :
    Carries P (lower.quoted ++ upper.quoted) (between truth column lower upper) := by
  have hbetween : '\'' ∉ (" BETWEEN " : Text) := by decide
  have hand : '\'' ∉ (" AND " : Text) := by decide
  have hlower := Carries.column hP hcolumn hbetween (by decide) (carries_literal hP htruth lower)
  exact (hlower.between hP hand (by decide) (carries_literal hP htruth upper)).paren hP

omit htruth in
theorem carries_valueList {ss values : List Text} (h : CarriesAll P ss values) :
    Carries P ss (valueList values) :=
  (h.joined hP (by decide) (by decide)).paren hP

end PredicateText

omit hP in
theorem Quotation.Carries.plain_append {s t : Text} (hs : ∀ c ∈ s, P c) (ht : Carries P [] t) :
    Carries P [] (s ++ t) := by
  cases ht with
  | plain ht => exact .plain (List.forall_mem_append.2 ⟨hs, ht⟩)

namespace CqlText

theorem carries_nullCheck (negated : Bool) {column : Text} (hcolumn : ∀ c ∈ column, P c) :
    Carries P [] (nullCheck negated column) := by
  have hmark : '\'' ∉ (if negated then " IS NOT NULL" else " IS NULL" : String).toList := by
    cases negated <;> decide
  exact (Carries.plain_append hcolumn (.of_unquoted hP hmark)).paren hP

theorem carries_like (negated : Bool) {column : Text} (l : Literal) (style : PatternStyle)
    (hcolumn : ∀ c ∈ column, P c) :
    Carries P [style.percentText l.rawText] (like negated column l style) := by
  have hmark : '\'' ∉ (if negated then " NOT ILIKE " else " ILIKE " : Text) ∧
      (if negated then " NOT ILIKE " else " ILIKE " : Text) ≠ [] := by
    cases negated <;> decide
  exact (Carries.column hP hcolumn hmark.1 hmark.2 (.quote _)).paren hP

theorem carries_ids (list : List Text) : Carries P list (ids list) := by
  have hvalues : CarriesAll P list (list.map Quotation.quote) := by
    have h := CarriesAll.map (P := P) fun t (_ : t ∈ list) => Carries.quote t
    rwa [List.flatMap_singleton'] at h
  exact ((PredicateText.carries_valueList hP hvalues).prepend_unquoted hP (u := "IN ")
    (by decide)).paren hP

theorem quotes_writer : writer.Quotes P .cqlText [] where
  join := rfl
  negate := rfl
  nullCheck := carries_nullCheck hP
  relate := PredicateText.carries_relate hP plain_truth
  like := carries_like hP
  between := PredicateText.carries_between hP plain_truth
  ids list _ := carries_ids hP list

end CqlText

namespace WhereClause

theorem carries_nullCheck (negated : Bool) {column : Text} (hcolumn : ∀ c ∈ column, P c) :
    Carries P [] (nullCheck negated column) := by
  have hmark : '\'' ∉ (if negated then " is not null" else " is null" : String).toList := by
    cases negated <;> decide
  exact (Carries.plain_append hcolumn (.of_unquoted hP hmark)).paren hP

theorem carries_like (negated : Bool) {column : Text} (l : Literal) (style : PatternStyle)
    (hcolumn : ∀ c ∈ column, P c) :
    Carries P [sentPattern (style.percentText l.rawText)] (like negated column l style) := by
  have hmark : '\'' ∉ (if negated then " not like " else " like " : Text) ∧
      (if negated then " not like " else " like " : Text) ≠ [] := by
    cases negated <;> decide
  have hupper : ∀ c ∈ "UPPER" ++ Text.paren column, P c := by
    refine List.forall_mem_append.2 ⟨Text.forall_of_unquoted hP (by decide), ?_⟩
    have hclose : ∀ c ∈ [')'], P c := Text.forall_of_unquoted hP (by decide)
    exact List.forall_mem_cons.2 ⟨hP '(' (by decide), List.forall_mem_append.2 ⟨hcolumn, hclose⟩⟩
  exact (Carries.column hP hupper hmark.1 hmark.2 (.quote _)).paren hP

theorem carries_ids {idColumn : Text} (hid : ∀ c ∈ idColumn, P c) (list : List Text) :
    Carries P (list.flatMap fun id => (Literal.text id).quoted) (ids idColumn list) := by
  have hvalues := CarriesAll.map (P := P) fun id (_ : id ∈ list) =>
    PredicateText.carries_literal hP plain_truth (.text id)
  have hin : '\'' ∉ (" IN " : Text) := by decide
  exact (Carries.column hP hid hin (by decide)
    (PredicateText.carries_valueList hP hvalues)).paren hP

theorem quotes_writer (idColumn : Text) : (writer idColumn).Quotes P .whereClause idColumn where
  join := rfl
  negate := rfl
  nullCheck := carries_nullCheck hP
  relate := PredicateText.carries_relate hP plain_truth
  like := carries_like hP
  between := PredicateText.carries_between hP plain_truth
  ids list hid := carries_ids hP hid list

end WhereClause

end Writers

/-! ## Trees -/

namespace Writer.Quotes

variable {w : Writer} {P : Char → Prop} {d : Dialect} {idColumn : Text}
  (hP : ∀ c, c ≠ '\'' → P c) (hw : w.Quotes P d idColumn)
include hw

theorem comparison (c : Comparison) (hcolumn : ∀ x ∈ c.column, P x) :
    Carries P (c.quoted d) (w.comparison c) := by
  obtain ⟨op, column, literal, pattern⟩ := c
  cases literal with
  | none =>
    cases op with
    | isNull => exact hw.nullCheck false hcolumn
    | isNotNull => exact hw.nullCheck true hcolumn
    | relation | like | notLike => exact .nil
  | some l =>
    cases op with
    | isNull => exact hw.nullCheck false hcolumn
    | isNotNull => exact hw.nullCheck true hcolumn
    | relation r => exact hw.relate r l hcolumn
    | like => exact hw.like false l pattern hcolumn
    | notLike => exact hw.like true l pattern hcolumn

include hP

theorem joinParts (op : Connective) {ss parts : List Text} (h : CarriesAll P ss parts) :
    Carries P ss (w.joinParts op parts) := by
  have hkept := h.filter_ne_nil
  unfold Writer.joinParts
  split
  · next hnone =>
    rw [hnone] at hkept
    cases hkept
    exact .nil
  · next part hpart =>
    rw [hpart] at hkept
    exact hkept.of_single
  · rw [hw.join]
    exact hkept.wrap hP op

/-- A tree is written with what its leaves are quoted as, in their order. -/
theorem node {n : Node} (hcolumns : ∀ column ∈ n.columns, ∀ c ∈ column, P c)
    (hid : n.selectsIds = true → ∀ c ∈ idColumn, P c) :
    Carries P (n.leaves.flatMap (Node.quoted d)) (w.node n) := by
  induction n using Node.induct with
  | group op children ih =>
    rw [Writer.node, Writer.nodes_eq_map, Node.leaves, Node.leavesOfList_eq_flatMap,
      List.flatMap_assoc]
    refine hw.joinParts hP op (.map fun child hchild => ih child hchild ?_ ?_)
    · intro column hcolumn
      apply hcolumns
      rw [Node.columns, Node.columnsOfList_eq_flatMap, List.mem_flatMap]
      exact ⟨child, hchild, hcolumn⟩
    · intro hselects
      apply hid
      rw [Node.selectsIds, Node.anySelectsIds_eq_any, List.any_eq_true]
      exact ⟨child, hchild, hselects⟩
  | not child ih =>
    have hchild := ih hcolumns hid
    rw [Writer.node, Node.leaves]
    split
    · next hempty =>
      rw [List.isEmpty_iff] at hempty
      rw [hempty] at hchild
      rw [hchild.eq_nil_of_unquoted (by simp)]
      exact .nil
    · rw [hw.negate]
      exact (hchild.prepend_unquoted hP (u := "NOT ") (by decide)).paren hP
  | compare c =>
    rw [Node.leaves, List.flatMap_singleton]
    exact hw.comparison c (hcolumns c.column List.mem_cons_self)
  | between column lower upper =>
    rw [Node.leaves, List.flatMap_singleton]
    exact hw.between lower upper (hcolumns column List.mem_cons_self)
  | ids list =>
    rw [Node.leaves, List.flatMap_singleton, Writer.node]
    split
    · next hempty =>
      obtain rfl := List.isEmpty_iff.1 hempty
      cases d <;> exact .nil
    · exact hw.ids list (hid rfl)
  | malformed why => exact .nil

end Writer.Quotes

namespace Dialect

theorem quotes_writer {P : Char → Prop} (hP : ∀ c, c ≠ '\'' → P c) {d : Dialect}
    (hd : d ≠ .filterMarkup) (o : CompileOptions) :
    (d.grammar o).writer.Quotes P d (if d = .whereClause then o.idColumn else []) ∧
      (d.grammar o).merge = Junction.merge := by
  cases d with
  | filterMarkup => exact absurd rfl hd
  | cqlText => exact ⟨CqlText.quotes_writer hP, rfl⟩
  | whereClause => exact ⟨WhereClause.quotes_writer hP o.idColumn, rfl⟩

end Dialect

namespace Filter

variable {d : Dialect} {f : Filter}

theorem carries_fragment {P : Char → Prop} (hP : ∀ c, c ≠ '\'' → P c) (hd : d ≠ .filterMarkup)
    (o : CompileOptions) (op : Connective) (hcolumns : ∀ column ∈ f.columns, ∀ c ∈ column, P c)
    (hid : d = .whereClause → f.selectsIds = true → ∀ c ∈ o.idColumn, P c) :
    Carries P (f.leaves.flatMap (Node.quoted d)) ((d.grammar o).fragment op f) := by
  obtain ⟨hw, hmerge⟩ := Dialect.quotes_writer hP hd o
  rw [Grammar.fragment, hmerge, Writer.nodes_eq_map, leaves, Node.leavesOfList_eq_flatMap,
    List.flatMap_assoc]
  refine Quotation.carries_merge hP op (.map fun n hn => hw.node hP ?_ ?_)
  · intro column hcolumn
    apply hcolumns
    rw [columns, Node.columnsOfList_eq_flatMap, List.mem_flatMap]
    exact ⟨n, hn, hcolumn⟩
  · intro hselects
    have hfilter : f.selectsIds = true := by
      rw [selectsIds, Node.anySelectsIds_eq_any, List.any_eq_true]
      exact ⟨n, hn, hselects⟩
    split
    · next hwhere => exact hid hwhere hfilter
    · simp

/-- Everything that a text language quotes is in the text of a filter as one quotation of its own,
with no quote right before or after it, and is read from there; as it is, where neither private
character is in it. If the columns hold no quotes these are all the literals of the text, in order.
-/
theorem quotations_survive (hd : d ≠ .filterMarkup) (o : CompileOptions) (op : Connective)
    (f : Filter) :
    (∀ n, f.HasPart n → ∀ s ∈ n.quoted d, ∃ before inside after,
      (d.grammar o).filterText op f = before ++ '\'' :: inside ∧
      before.getLast? ≠ some '\'' ∧ after.head? ≠ some '\'' ∧
      unquote? inside = some (restore s, after) ∧
      (restore s = s ↔ Quotation.shieldedOpen ∉ s ∧ Quotation.shieldedClose ∉ s)) ∧
    ((∀ column ∈ f.columns, '\'' ∉ column) →
      (d = .whereClause → f.selectsIds = true → '\'' ∉ o.idColumn) →
      literals ((d.grammar o).filterText op f) =
        (f.leaves.flatMap (Node.quoted d)).map fun s => doubled (restore s)) := by
  constructor
  · intro n hn s hs
    have hcarries := carries_fragment (P := fun _ => True) (f := f) (fun _ _ => trivial) hd o op
      (fun _ _ _ _ => trivial) (fun _ _ _ _ => trivial)
    have hleaf : n ∈ f.leaves := hn.leaves_subset (by simp [Node.leaves_eq_of_mem_quoted hs])
    obtain ⟨before, inside, after, htext, hbefore, hafter, hread⟩ :=
      hcarries.exists_unquote? (List.mem_flatMap.2 ⟨n, hleaf, hs⟩)
    exact ⟨before, inside, after, htext, hbefore, hafter, hread, Quotation.restore_eq_self_iff⟩
  · intro hcolumns hid
    have hunquoted : ∀ {t : Text}, '\'' ∉ t → ∀ c ∈ t, c ≠ '\'' := fun ht c hc hquote =>
      ht (hquote ▸ hc)
    exact (carries_fragment (fun _ hc => hc) hd o op
      (fun column hcolumn => hunquoted (hcolumns column hcolumn))
      (fun hwhere hselects => hunquoted (hid hwhere hselects))).literals_restore

/-- Literals that look like the structure of a filter. -/
def disguisedLiterals : Filter := ⟨[
  .group .or [
    .compare ⟨.relation .equals, "A", some (.text "it's) OR (B = ''"), {}⟩,
    .not (.between "B" (.text " and ") (.text "'"))],
  .compare ⟨.like, "C", some (.text "(*'"), {}⟩,
  .ids ["reefs.1') OR ('"]]⟩

theorem quotations_survive_of_disguised_literals :
    let text := (Dialect.cqlText.grammar {}).filterText .and disguisedLiterals
    literals text = ["it''s) OR (B = ''''".toList, " and ".toList, "''".toList, "(%''".toList,
      "reefs.1'') OR (''".toList] ∧
    ∃ before inside after, text = before ++ '\'' :: inside ∧
      unquote? inside = some ("it's) OR (B = ''".toList, after) := by
  intro text
  obtain ⟨hread, hliterals⟩ := quotations_survive (d := .cqlText) (by decide) {} .and
    disguisedLiterals
  have hpart : disguisedLiterals.HasPart
      (.compare ⟨.relation .equals, "A", some (.text "it's) OR (B = ''"), {}⟩) :=
    ⟨_, List.mem_cons_self, .child List.mem_cons_self (.self _)⟩
  obtain ⟨before, inside, after, htext, -, -, hinside, hsame⟩ :=
    hread _ hpart "it's) OR (B = ''" (by decide +kernel)
  refine ⟨(hliterals (by decide) (by decide)).trans (by decide +kernel), before, inside, after,
    htext, ?_⟩
  rwa [hsame.2 (by decide)] at hinside

/-- A private character of a literal comes out as a parenthesis, and no quotation is read as it. -/
theorem private_character_restored :
    let f : Filter := ⟨[.compare ⟨.relation .equals, "NAME", some (.text "\ue000"), {}⟩]⟩
    ∀ d ∈ [Dialect.cqlText, .whereClause],
      (∃ n, f.HasPart n ∧ "\ue000".toList ∈ n.quoted d) ∧
      (d.grammar {}).filterText .and f = "(NAME = '(')".toList ∧
      ¬ ∃ before inside after, (d.grammar {}).filterText .and f = before ++ '\'' :: inside ∧
        unquote? inside = some ("\ue000".toList, after) := by
  intro f d hd
  have htext : (d.grammar {}).filterText .and f = "(NAME = '(')".toList := by
    revert d
    decide +kernel
  have hquoted : "\ue000".toList ∈ Node.quoted d
      (.compare ⟨.relation .equals, "NAME", some (.text "\ue000"), {}⟩) := by
    revert d
    decide +kernel
  refine ⟨⟨_, ⟨_, List.mem_cons_self, .self _⟩, hquoted⟩, htext, ?_⟩
  rintro ⟨before, inside, after, hsplit, hread⟩
  have hsuffix : inside ∈ "(NAME = '(')".toList.tails :=
    (List.mem_tails _ _).2 ⟨before ++ ['\''], by rw [← htext, hsplit]; simp⟩
  have hnone : ∀ t ∈ "(NAME = '(')".toList.tails,
      (unquote? t).map Prod.fst ≠ some "\ue000".toList := by
    decide
  exact hnone inside hsuffix (by rw [hread]; rfl)

end Filter
end MapQuery
