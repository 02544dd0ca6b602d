import MapQuery.Proofs.Junction.Regrouping
import MapQuery.Proofs.Request.Accounting
import MapQuery.Proofs.Request.Restriction

/-!
# Agreement of dialects

Whether a tree says anything hangs on its leaves and not on the language that it is written in.
Without selections of feature ids the languages therefore use the same filters and tell the same of
the others.
-/

set_option autoImplicit false

namespace MapQuery

/-! ## Live leaves -/

namespace Node

/-- Whether a node is a leaf with something to say: a comparison that has the literal it needs, a
range check or a selection of at least one id. -/
def isLive : Node → Bool
  | .compare c => c.isComplete
  | .between _ _ _ => true
  | .ids list => !list.isEmpty
  | .group _ _ | .not _ | .malformed _ => false

def HasLive (n : Node) : Prop := ∃ leaf : Node, leaf.IsPart n ∧ leaf.isLive = true

theorem hasLive_of_isLive {leaf : Node} (h : leaf.isLive = true) : leaf.HasLive :=
  ⟨leaf, .self leaf, h⟩

theorem HasLive.group {child : Node} {children : List Node} (h : child.HasLive)
    (hmem : child ∈ children) (op : Connective) : (Node.group op children).HasLive := by
  obtain ⟨leaf, hpart, hlive⟩ := h
  exact ⟨leaf, .child hmem hpart, hlive⟩

theorem HasLive.not {child : Node} (h : child.HasLive) : (Node.not child).HasLive := by
  obtain ⟨leaf, hpart, hlive⟩ := h
  exact ⟨leaf, .negated hpart, hlive⟩

end Node

/-! ## What writers write for them -/

theorem Markup.blank_element (name : Text) (attributes : List (Text × Text)) (content : Text) :
    Text.blank (element name attributes content) = false := by
  apply Text.blank_eq_false_of_mem (c := '<') (by decide)
  simp [element]

/-- Whether a writer never writes a blank text for what has something to say. -/
structure Writer.IsOutspoken (w : Writer) : Prop where
  join : ∀ op parts, Text.blank (w.join op parts) = false
  negate : ∀ part, Text.blank (w.negate part) = false
  nullCheck : ∀ negated column, Text.blank (w.nullCheck negated column) = false
  relate : ∀ r column l, Text.blank (w.relate r column l) = false
  like : ∀ negated column l style, Text.blank (w.like negated column l style) = false
  between : ∀ column lower upper, Text.blank (w.between column lower upper) = false
  ids : ∀ list, list ≠ [] → Text.blank (w.ids list) = false

theorem CqlText.isOutspoken_writer : writer.IsOutspoken where
  join _ _ := Text.blank_paren _
  negate _ := Text.blank_paren _
  nullCheck _ _ := Text.blank_paren _
  relate _ _ _ := Text.blank_paren _
  like _ _ _ _ := Text.blank_paren _
  between _ _ _ := Text.blank_paren _
  ids _ _ := Text.blank_paren _

theorem WhereClause.isOutspoken_writer (idColumn : Text) : (writer idColumn).IsOutspoken where
  join _ _ := Text.blank_paren _
  negate _ := Text.blank_paren _
  nullCheck _ _ := Text.blank_paren _
  relate _ _ _ := Text.blank_paren _
  like _ _ _ _ := Text.blank_paren _
  between _ _ _ := Text.blank_paren _
  ids _ _ := Text.blank_paren _

namespace FilterMarkup

theorem blank_negateIf {part : Text} (h : Text.blank part = false) (negated : Bool) :
    Text.blank (negateIf negated part) = false := by
  cases negated with
  | false => exact h
  | true => exact Markup.blank_element _ _ _

theorem blank_featureId (id : Text) : Text.blank (featureId id) = false := by
  have hmark : '<' ∈ idMark := by decide
  have hmem : '<' ∈ featureId id :=
    List.mem_append_left _ (List.mem_append_left _ (List.mem_append_left _ hmark))
  exact Text.blank_eq_false_of_mem (by decide) hmem

theorem isOutspoken_writer : writer.IsOutspoken where
  join _ _ := Markup.blank_element _ _ _
  negate _ := Markup.blank_element _ _ _
  nullCheck negated column := by
    change Text.blank (negateIf negated (element _ (property column))) = false
    exact blank_negateIf (Markup.blank_element _ _ _) negated
  relate _ _ _ := Markup.blank_element _ _ _
  like negated column l style := by
    change Text.blank (negateIf negated (Markup.element _ _ _)) = false
    exact blank_negateIf (Markup.blank_element _ _ _) negated
  between _ _ _ := Markup.blank_element _ _ _
  ids := by
    intro list hlist
    cases list with
    | nil => exact absurd rfl hlist
    | cons id rest =>
      change Text.blank (featureId id ++ rest.flatMap featureId) = false
      rw [Text.blank, List.all_append, Bool.and_eq_false_iff]
      exact .inl (blank_featureId id)

end FilterMarkup

theorem Dialect.isOutspoken_writer (d : Dialect) (o : CompileOptions) :
    (d.grammar o).writer.IsOutspoken := by
  cases d with
  | filterMarkup => exact FilterMarkup.isOutspoken_writer
  | cqlText => exact CqlText.isOutspoken_writer
  | whereClause => exact WhereClause.isOutspoken_writer o.idColumn

theorem Writer.comparison_eq_nil (w : Writer) {c : Comparison} (h : c.isComplete = false) :
    w.comparison c = [] := by
  obtain ⟨op, column, literal, pattern⟩ := c
  cases literal with
  | some l => cases h
  | none =>
    cases op with
    | isNull => cases h
    | isNotNull => cases h
    | _ => rfl

/-- No writer writes anything for a tree without a live leaf. -/
theorem Writer.node_eq_nil (w : Writer) {n : Node} (h : ¬ n.HasLive) : w.node n = [] := by
  induction n using Node.induct with
  | group op children ih =>
    rw [node, nodes_eq_map]
    apply joinParts_eq_nil
    intro t ht
    obtain ⟨child, hmem, rfl⟩ := List.mem_map.1 ht
    apply ih child hmem
    intro hlive
    exact h (hlive.group hmem op)
  | not child ih =>
    have hinner := ih fun hlive => h hlive.not
    rw [node, hinner]
    rfl
  | compare c =>
    apply w.comparison_eq_nil
    rw [Bool.eq_false_iff]
    intro hcomplete
    exact h (Node.hasLive_of_isLive hcomplete)
  | between column lower upper => exact absurd (Node.hasLive_of_isLive rfl) h
  | ids list =>
    cases list with
    | nil => rfl
    | cons id rest => exact absurd (Node.hasLive_of_isLive rfl) h
  | malformed why => rfl

namespace Writer.IsOutspoken

variable {w : Writer} (hw : w.IsOutspoken)
include hw

theorem blank_comparison {c : Comparison} (h : c.isComplete = true) :
    Text.blank (w.comparison c) = false := by
  obtain ⟨op, column, literal, pattern⟩ := c
  cases op with
  | isNull => exact hw.nullCheck false column
  | isNotNull => exact hw.nullCheck true column
  | relation r =>
    cases literal with
    | none => cases h
    | some l => exact hw.relate r column l
  | like =>
    cases literal with
    | none => cases h
    | some l => exact hw.like false column l pattern
  | notLike =>
    cases literal with
    | none => cases h
    | some l => exact hw.like true column l pattern

theorem blank_leaf {leaf : Node} (h : leaf.isLive = true) : Text.blank (w.node leaf) = false := by
  cases leaf with
  | compare c => exact hw.blank_comparison h
  | between column lower upper => exact hw.between column lower upper
  | ids list =>
    cases list with
    | nil => cases h
    | cons id rest => exact hw.ids (id :: rest) (List.cons_ne_nil _ _)
  | group op children => cases h
  | not child => cases h
  | malformed why => cases h

theorem joinParts (op : Connective) {parts : List Text}
    (hparts : ∀ t ∈ parts, t = [] ∨ Text.blank t = false) (h : ∃ t ∈ parts, t ≠ []) :
    Text.blank (w.joinParts op parts) = false := by
  unfold Writer.joinParts
  split
  · next hnone =>
    obtain ⟨t, ht, hne⟩ := h
    have hkept : t ∈ parts.filter (!·.isEmpty) := List.mem_filter.2 ⟨ht, by simpa using hne⟩
    rw [hnone] at hkept
    cases hkept
  · next part hpart =>
    have hkept : part ∈ parts.filter (!·.isEmpty) := hpart ▸ List.mem_singleton_self part
    obtain ⟨hmem, hne⟩ := List.mem_filter.1 hkept
    exact (hparts part hmem).resolve_left (by simpa using hne)
  · exact hw.join op _

/-- What is written for a node is never blank without being empty. -/
theorem node_eq_nil_or (n : Node) : w.node n = [] ∨ Text.blank (w.node n) = false := by
  induction n using Node.induct with
  | group op children ih =>
    rw [Writer.node, nodes_eq_map]
    have hparts : ∀ t ∈ children.map w.node, t = [] ∨ Text.blank t = false := by
      intro t ht
      obtain ⟨child, hmem, rfl⟩ := List.mem_map.1 ht
      exact ih child hmem
    by_cases hsome : ∃ t ∈ children.map w.node, t ≠ []
    · exact .inr (hw.joinParts op hparts hsome)
    · push Not at hsome
      exact .inl (w.joinParts_eq_nil op hsome)
  | not child ih =>
    rw [Writer.node]
    cases w.node child with
    | nil => exact .inl rfl
    | cons c rest => exact .inr (hw.negate _)
  | compare c =>
    cases hcomplete : c.isComplete with
    | true => exact .inr (hw.blank_comparison hcomplete)
    | false => exact .inl (w.comparison_eq_nil hcomplete)
  | between column lower upper => exact .inr (hw.between column lower upper)
  | ids list =>
    cases list with
    | nil => exact .inl rfl
    | cons id rest => exact .inr (hw.ids (id :: rest) (List.cons_ne_nil _ _))
  | malformed why => exact .inl rfl

/-- A live leaf is heard through all that is around it. -/
theorem blank_node {n : Node} (h : n.HasLive) : Text.blank (w.node n) = false := by
  obtain ⟨leaf, hpart, hlive⟩ := h
  induction hpart with
  | self => exact hw.blank_leaf hlive
  | @child child op children hmem _ ih =>
    rw [Writer.node, nodes_eq_map]
    apply hw.joinParts
    · intro t ht
      obtain ⟨other, -, rfl⟩ := List.mem_map.1 ht
      exact hw.node_eq_nil_or other
    · exact ⟨_, List.mem_map_of_mem hmem, Text.ne_nil_of_blank_eq_false ih⟩
  | negated _ ih =>
    have hinner := Text.ne_nil_of_blank_eq_false ih
    simp only [Writer.node, List.isEmpty_eq_false_iff.2 hinner, Bool.false_eq_true, if_false]
    exact hw.negate _

theorem node_eq_nil_iff (n : Node) : w.node n = [] ↔ ¬ n.HasLive := by
  constructor
  · intro hnil hlive
    exact Text.ne_nil_of_blank_eq_false (hw.blank_node hlive) hnil
  · exact w.node_eq_nil

end Writer.IsOutspoken

/-! ## Filters -/

/-- A merge that is given no blank texts but empty ones says nothing only if they all are. -/
theorem Dialect.merge_eq_nil_iff (d : Dialect) (o : CompileOptions) (op : Connective)
    {texts : List Text} (h : ∀ t ∈ texts, t = [] ∨ Text.blank t = false) :
    (d.grammar o).merge op texts = [] ↔ ∀ t ∈ texts, t = [] := by
  have hblank : (∀ t ∈ texts, Text.blank t = true) ↔ ∀ t ∈ texts, t = [] := by
    apply forall₂_congr
    intro t ht
    rcases h t ht with rfl | hfilled
    · exact iff_of_true rfl rfl
    · apply iff_of_false
      · rw [hfilled]
        exact Bool.false_ne_true
      · rintro rfl
        cases hfilled
  cases d with
  | filterMarkup =>
    constructor
    · intro hnil
      by_contra hsome
      push Not at hsome
      have hfilled := FilterMarkup.isOutspoken_writer.joinParts op h hsome
      exact Text.ne_nil_of_blank_eq_false hfilled hnil
    · exact FilterMarkup.writer.joinParts_eq_nil op
  | cqlText => exact Junction.merge_eq_nil_iff.trans hblank
  | whereClause => exact Junction.merge_eq_nil_iff.trans hblank

theorem Dialect.fragment_eq_nil_iff (d : Dialect) (o : CompileOptions) (op : Connective)
    (f : Filter) : (d.grammar o).fragment op f = [] ↔ ∀ n ∈ f.nodes, ¬ n.HasLive := by
  have hw := d.isOutspoken_writer o
  have htexts : ∀ t ∈ f.nodes.map (d.grammar o).writer.node, t = [] ∨ Text.blank t = false := by
    intro t ht
    obtain ⟨n, -, rfl⟩ := List.mem_map.1 ht
    exact hw.node_eq_nil_or n
  rw [Grammar.fragment, Writer.nodes_eq_map, d.merge_eq_nil_iff o op htexts, List.forall_mem_map]
  apply forall₂_congr
  intro n _
  exact hw.node_eq_nil_iff n

namespace ChosenFilter

variable {f : ChosenFilter} (h : f.filter.selectsIds = false)
include h

/-- Languages differ only in whether they refuse a selection of feature ids. -/
theorem refusal?_eq (g g' : Grammar) (columns : Option Columns) (r : Resolution) :
    f.refusal? g columns r = f.refusal? g' columns r := by
  simp only [refusal?, h, Bool.and_false, Bool.false_and]

theorem contribution_agrees (d d' : Dialect) (o : CompileOptions) (r : Resolution) :
    ((f.contribution (d.grammar o) o.columns r).1 = [] ↔
        (f.contribution (d'.grammar o) o.columns r).1 = []) ∧
      (f.contribution (d.grammar o) o.columns r).2 =
        (f.contribution (d'.grammar o) o.columns r).2 := by
  have hempty : (d.grammar o).fragment f.group f.filter = [] ↔
      (d'.grammar o).fragment f.group f.filter = [] := by
    rw [Dialect.fragment_eq_nil_iff, Dialect.fragment_eq_nil_iff]
  unfold contribution
  rw [refusal?_eq h (d.grammar o) (d'.grammar o)]
  split
  · exact ⟨Iff.rfl, rfl⟩
  · refine ⟨hempty, ?_⟩
    simp only [List.isEmpty_iff, hempty]

end ChosenFilter

/-! ## Compiled queries -/

/-- Whether an advisory is about excluded areas that a language cannot express. -/
def Advisory.isExclusion : Advisory → Bool
  | .unsupportedExclusion _ _ => true
  | .malformedFilter _ _ | .rejectedColumn _ _ _ | .emptyFilter _ | .mixedIds _ => false

theorem Dialect.filter_advisories_spatial (d : Dialect) (o : CompileOptions) (r : Resolution) :
    ((d.grammar o).spatial r).advisories.filter (!·.isExclusion) = [] := by
  cases d with
  | filterMarkup => rfl
  | cqlText => rfl
  | whereClause =>
    change (if r.excluded.isEmpty then []
      else [Advisory.unsupportedExclusion r.layerId r.excluded.length]).filter _ = []
    split <;> rfl

/-- A tree is written in every language or in none, and it is written just if it has a live leaf.
Where no feature ids are selected, the same filters contribute in every language, and the same is
told of the others. -/
theorem dialects_agree (o : CompileOptions) :
    (∀ (d : Dialect) (n : Node), (d.grammar o).writer.node n = [] ↔ ¬ n.HasLive) ∧
    ∀ r : Resolution, (∀ f ∈ r.filters, ∀ list, ¬ f.filter.HasPart (.ids list)) →
      ∀ d d' : Dialect, r.contributing d o = r.contributing d' o ∧
        (compileQuery d o r).advisories.filter (!·.isExclusion) =
          (compileQuery d' o r).advisories.filter (!·.isExclusion) := by
  constructor
  · intro d n
    exact (d.isOutspoken_writer o).node_eq_nil_iff n
  · intro r hids d d'
    have hselects : ∀ f ∈ r.filters, f.filter.selectsIds = false := by
      intro f hf
      rw [Bool.eq_false_iff, ne_eq, Filter.selectsIds_iff]
      rintro ⟨list, hpart⟩
      exact hids f hf list hpart
    constructor
    · apply List.filter_congr
      intro f hf
      have hempty := (ChosenFilter.contribution_agrees (hselects f hf) d d' o r).1
      rw [Bool.eq_iff_iff]
      simp only [Bool.not_eq_true', List.isEmpty_eq_false_iff, ne_eq, hempty]
    · have htold : (r.filters.map fun f => f.contribution (d.grammar o) o.columns r).flatMap
            Prod.snd =
          (r.filters.map fun f => f.contribution (d'.grammar o) o.columns r).flatMap Prod.snd := by
        rw [List.flatMap_map, List.flatMap_map]
        apply List.flatMap_congr
        intro f hf
        exact (ChosenFilter.contribution_agrees (hselects f hf) d d' o r).2
      simp only [compileQuery, List.filter_append, Dialect.filter_advisories_spatial, htold]

/-- A filter that all languages use stands beside one whose leaves all lack something; of the
excluded area only where clauses tell. -/
theorem dialects_agree_of_dead_leaves :
    let named : ChosenFilter := ⟨"F1", ⟨[.not (.comparing .isNull "NAME" (.text ""))]⟩, .and⟩
    let dead : ChosenFilter :=
      ⟨"F2", ⟨[.not (.group .or [.malformed .noChild, .compare ⟨.like, "NAME", none, {}⟩])]⟩, .or⟩
    let r : Resolution := ⟨"reefs", [], [⟨"A1", .polygon []⟩], [named, dead], some .or, []⟩
    (r.contributing .filterMarkup {}).map ChosenFilter.id = [("F1" : Text)] ∧
      (compileQuery .whereClause {} r).advisories =
        [.malformedFilter "F2" "Not without child", .emptyFilter "F2",
          .unsupportedExclusion "reefs" 1] ∧
      r.contributing .filterMarkup {} = r.contributing .whereClause {} ∧
      (compileQuery .filterMarkup {} r).advisories.filter (!·.isExclusion) =
        (compileQuery .whereClause {} r).advisories.filter (!·.isExclusion) := by
  intro named dead r
  have hids : ∀ f ∈ r.filters, ∀ list, ¬ f.filter.HasPart (.ids list) := by
    have hselects : ∀ f ∈ r.filters, f.filter.selectsIds = false := by decide
    intro f hf list hpart
    have hsome := Filter.selectsIds_iff.2 ⟨list, hpart⟩
    rw [hselects f hf] at hsome
    cases hsome
  have hagree := (dialects_agree {}).2 r hids .filterMarkup .whereClause
  exact ⟨by decide, by decide, hagree⟩

end MapQuery
