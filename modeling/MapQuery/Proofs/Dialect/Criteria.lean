import MapQuery.Dialect.FilterMarkup
import MapQuery.Filter.Stored
import MapQuery.Proofs.Markup.Spelling

/-!
# Criteria

What filter markup says of a node is its criterion: the node without the parts that say nothing, its
literals as texts, and both negated operators taken apart. The markup of a node without feature ids
and its criterion determine each other, whatever its columns, literals and patterns hold.
-/

set_option autoImplicit false

namespace MapQuery

open Markup (Spells Tree encode)

theorem Tag.mem_known {tag : Tag} (h : tag ≠ .unknown) : tag ∈ known := by
  cases tag with
  | group op => cases op <;> decide
  | compare op =>
    have hop : Tag.compare op ∈ Operator.all.map .compare :=
      List.mem_map_of_mem (Operator.mem_all op)
    simp only [known, List.mem_append, hop, or_true, true_or]
  | unknown => exact absurd rfl h
  | not | between | ids => decide

theorem Tag.name_inj {tag tag' : Tag} (h : tag ≠ .unknown) (h' : tag' ≠ .unknown)
    (heq : tag.name = tag'.name) : tag = tag' := by
  have hall : ∀ t ∈ known, ∀ u ∈ known, t.name = u.name → t = u := by decide
  exact hall tag (mem_known h) tag' (mem_known h') heq

/-- What a node asks of a feature. -/
inductive Criterion where
  | group (op : Connective) (parts : List Criterion)
  | not (part : Criterion)
  | relate (relation : Relation) (column literal : Text)
  | like (column pattern : Text) (style : PatternStyle)
  | isNull (column : Text)
  | between (column lower upper : Text)

namespace Criterion

/-- The criterion of joined parts: there is none without parts, and a single part is its own. -/
def ofParts? (op : Connective) : List Criterion → Option Criterion
  | [] => none
  | [part] => some part
  | parts => some (.group op parts)

/-- The criterion of a comparison, unless it lacks the literal it needs. A null check has no use for
a literal. -/
def ofComparison? (c : Comparison) : Option Criterion :=
  match c.operator, c.literal with
  | .isNull, _ => some (.isNull c.column)
  | .isNotNull, _ => some (.not (.isNull c.column))
  | _, none => none
  | .relation r, some l => some (.relate r c.column l.rawText)
  | .like, some l => some (.like c.column l.rawText c.pattern)
  | .notLike, some l => some (.not (.like c.column l.rawText c.pattern))

end Criterion

namespace Node

mutual

/-- The criterion of a node, if the node says anything. -/
def criterion? : Node → Option Criterion
  | .group op children => Criterion.ofParts? op (criteria children)
  | .not child => child.criterion?.map .not
  | .compare c => Criterion.ofComparison? c
  | .between column lower upper => some (.between column lower.rawText upper.rawText)
  | .ids _ | .malformed _ => none

def criteria : List Node → List Criterion
  | [] => []
  | n :: rest => n.criterion?.toList ++ criteria rest

end

end Node

namespace Criterion

open FilterMarkup (writer)

mutual

/-- The markup of a criterion. -/
def markup : Criterion → Text
  | .group op parts => writer.join op (markups parts)
  | .not part => writer.negate part.markup
  | .relate r column literal => writer.relate r column (.text literal)
  | .like column pattern style => writer.like false column (.text pattern) style
  | .isNull column => writer.nullCheck false column
  | .between column lower upper => writer.between column (.text lower) (.text upper)

def markups : List Criterion → List Text
  | [] => []
  | c :: rest => c.markup :: markups rest

end

/-- An element that is named as a node of a stored filter is. -/
def tagged (tag : Tag) (attributes : List (Text × Text)) (content : List Tree) : Tree :=
  .element ("ogc:" ++ tag.name) attributes content

/-- An element that holds a text. -/
def textTree (name : Text) (t : Text) : Tree :=
  .element ("ogc:" ++ name) [] (Tree.contentOfText t)

mutual

/-- What the markup of a criterion spells. -/
def tree : Criterion → Tree
  | .group op parts => tagged (.group op) [] (trees parts)
  | .not part => tagged .not [] [part.tree]
  | .relate r column literal =>
    tagged (.compare (.relation r)) [] [textTree "PropertyName" column, textTree "Literal" literal]
  | .like column pattern style =>
    tagged (.compare .like)
      [("wildCard", [style.wild]), ("singleChar", [style.single]), ("escapeChar", [style.escape])]
      [textTree "PropertyName" column, textTree "Literal" pattern]
  | .isNull column => tagged (.compare .isNull) [] [textTree "PropertyName" column]
  | .between column lower upper =>
    tagged .between [] [textTree "PropertyName" column,
      .element "ogc:LowerBoundary" [] [textTree "Literal" lower],
      .element "ogc:UpperBoundary" [] [textTree "Literal" upper]]

def trees : List Criterion → List Tree
  | [] => []
  | c :: rest => c.tree :: trees rest

end

theorem markup_ne_nil (c : Criterion) : c.markup ≠ [] := by
  cases c <;> exact List.cons_ne_nil _ _

end Criterion

section

open FilterMarkup (writer)
open Criterion (markup markups)

theorem FilterMarkup.comparison_eq_markup (c : Comparison) :
    writer.comparison c = ((Criterion.ofComparison? c).map markup).getD [] := by
  obtain ⟨op, column, literal, style⟩ := c
  cases op <;> cases literal <;> rfl

theorem FilterMarkup.joinParts_eq_markup (op : Connective) {parts : List Text}
    {cs : List Criterion} (h : parts.filter (!·.isEmpty) = markups cs) :
    writer.joinParts op parts = ((Criterion.ofParts? op cs).map markup).getD [] := by
  rw [Writer.joinParts, h]
  match cs with
  | [] => rfl
  | [c] => rfl
  | c :: d :: rest => rfl

mutual

/-- A node without feature ids is written as its criterion is. -/
theorem FilterMarkup.node_eq_markup :
    ∀ {n : Node}, n.selectsIds = false → writer.node n = (n.criterion?.map markup).getD []
  | .group op children, h => joinParts_eq_markup op (filter_nodes_eq_markups h)
  | .not child, h => by
    have hchild := node_eq_markup (n := child) h
    rw [Writer.node, hchild, Node.criterion?]
    cases child.criterion? with
    | none => rfl
    | some c => simp [c.markup_ne_nil, markup]
  | .compare c, _ => comparison_eq_markup c
  | .between _ _ _, _ => rfl
  | .ids _, h => by cases h
  | .malformed _, _ => rfl

theorem FilterMarkup.filter_nodes_eq_markups :
    ∀ {ns : List Node}, Node.anySelectsIds ns = false →
      (writer.nodes ns).filter (!·.isEmpty) = markups (Node.criteria ns)
  | [], _ => rfl
  | n :: rest, h => by
    rw [Node.anySelectsIds, Bool.or_eq_false_iff] at h
    have hn := node_eq_markup h.1
    have hrest := filter_nodes_eq_markups h.2
    rw [Writer.nodes, hn, Node.criteria]
    cases n.criterion? with
    | none => exact hrest
    | some c =>
      have hc : (!(c.markup).isEmpty) = true := by simp [c.markup_ne_nil]
      simp [hc, hrest, markups]

end

namespace Criterion

theorem spells_property (column : Text) :
    Spells (FilterMarkup.property column) [textTree "PropertyName" column] :=
  .ofText (by decide) column

theorem spells_literal (t : Text) :
    Spells (FilterMarkup.literal (.text t)) [textTree "Literal" t] :=
  .ofText (by decide) t

mutual

theorem spells_markup : ∀ c : Criterion, Spells c.markup [c.tree]
  | .group op parts => by
    have htag : Markup.IsTag ("ogc:" ++ op.name) [] := by cases op <;> decide
    exact .single htag (spells_markups parts)
  | .not part => .single (by decide) (spells_markup part)
  | .relate r column literal => by
    have htag : Markup.IsTag ("ogc:" ++ r.name) [] := by cases r <;> decide
    exact .single htag ((spells_property column).append (spells_literal literal))
  | .like column pattern style =>
    .single ⟨by decide, by simp; decide, by simp⟩
      ((spells_property column).append (spells_literal pattern))
  | .isNull column => .single (by decide) (spells_property column)
  | .between column lower upper => by
    have hlower : Spells (FilterMarkup.element "LowerBoundary" _) _ :=
      .single (by decide) (spells_literal lower)
    have hupper : Spells (FilterMarkup.element "UpperBoundary" _) _ :=
      .single (by decide) (spells_literal upper)
    exact .single (by decide) (((spells_property column).append hlower).append hupper)

theorem spells_markups : ∀ cs : List Criterion, Spells (markups cs).flatten (trees cs)
  | [] => .nil
  | c :: rest => (spells_markup c).append (spells_markups rest)

end

theorem tagged_inj {tag tag' : Tag} {as bs : List (Text × Text)} {ts us : List Tree}
    (h : tagged tag as ts = tagged tag' bs us) : tag.name = tag'.name ∧ as = bs ∧ ts = us := by
  obtain ⟨hname, has, hts⟩ := Tree.element.inj h
  exact ⟨List.append_cancel_left hname, has, hts⟩

theorem textTree_inj {name t u : Text} (h : textTree name t = textTree name u) : t = u := by
  obtain ⟨-, -, hcontent⟩ := Tree.element.inj h
  unfold Tree.contentOfText at hcontent
  split at hcontent <;> split at hcontent
  · next ht hu => rw [ht, hu]
  · cases hcontent
  · cases hcontent
  · exact Tree.chars.inj (List.cons.inj hcontent).1

/-- The tag of the node that a criterion is written as. -/
def tag : Criterion → Tag
  | .group op _ => .group op
  | .not _ => .not
  | .relate r _ _ => .compare (.relation r)
  | .like _ _ _ => .compare .like
  | .isNull _ => .compare .isNull
  | .between _ _ _ => .between

theorem tag_eq_of_tree {c d : Criterion} (h : c.tree = d.tree) : c.tag = d.tag := by
  have hknown : ∀ c : Criterion, c.tag ≠ .unknown := by
    intro c
    cases c <;> exact Tag.noConfusion
  have hname : ∀ c : Criterion, ∃ as ts, c.tree = tagged c.tag as ts := by
    intro c
    cases c <;> exact ⟨_, _, rfl⟩
  obtain ⟨as, ts, hc⟩ := hname c
  obtain ⟨bs, us, hd⟩ := hname d
  rw [hc, hd] at h
  exact Tag.name_inj (hknown c) (hknown d) (tagged_inj h).1

mutual

-- The tags tell that both criteria are of one form; their parts are then compared in order.
theorem tree_inj : ∀ {c d : Criterion}, c.tree = d.tree → c = d
  | .group op parts, d, h => by
    have htag := tag_eq_of_tree h
    cases d with
    | group op' parts' =>
      obtain rfl : op = op' := Tag.group.inj htag
      rw [trees_inj (tagged_inj h).2.2]
    | not _ | relate _ _ _ | like _ _ _ | isNull _ | between _ _ _ => cases htag
  | .not part, d, h => by
    have htag := tag_eq_of_tree h
    cases d with
    | not part' => rw [tree_inj (List.cons.inj (tagged_inj h).2.2).1]
    | group _ _ | relate _ _ _ | like _ _ _ | isNull _ | between _ _ _ => cases htag
  | .relate r column literal, d, h => by
    have htag := tag_eq_of_tree h
    cases d with
    | relate r' column' literal' =>
      obtain rfl : r = r' := by simpa [tag] using htag
      obtain ⟨hcolumn, hrest⟩ := List.cons.inj (tagged_inj h).2.2
      rw [textTree_inj hcolumn, textTree_inj (List.cons.inj hrest).1]
    | group _ _ | not _ | like _ _ _ | isNull _ | between _ _ _ => cases htag
  | .like column pattern style, d, h => by
    have htag := tag_eq_of_tree h
    cases d with
    | like column' pattern' style' =>
      obtain ⟨-, hstyle, hcontent⟩ := tagged_inj h
      obtain ⟨hcolumn, hrest⟩ := List.cons.inj hcontent
      obtain rfl : style = style' := by
        cases style
        cases style'
        simpa using hstyle
      rw [textTree_inj hcolumn, textTree_inj (List.cons.inj hrest).1]
    | group _ _ | not _ | relate _ _ _ | isNull _ | between _ _ _ => cases htag
  | .isNull column, d, h => by
    have htag := tag_eq_of_tree h
    cases d with
    | isNull column' => rw [textTree_inj (List.cons.inj (tagged_inj h).2.2).1]
    | group _ _ | not _ | relate _ _ _ | like _ _ _ | between _ _ _ => cases htag
  | .between column lower upper, d, h => by
    have htag := tag_eq_of_tree h
    cases d with
    | between column' lower' upper' =>
      obtain ⟨hcolumn, hbounds⟩ := List.cons.inj (tagged_inj h).2.2
      obtain ⟨hlower, hupper⟩ := List.cons.inj hbounds
      obtain ⟨-, -, hlower⟩ := Tree.element.inj hlower
      obtain ⟨-, -, hupper⟩ := Tree.element.inj (List.cons.inj hupper).1
      rw [textTree_inj hcolumn, textTree_inj (List.cons.inj hlower).1,
        textTree_inj (List.cons.inj hupper).1]
    | group _ _ | not _ | relate _ _ _ | like _ _ _ | isNull _ => cases htag

theorem trees_inj : ∀ {cs ds : List Criterion}, trees cs = trees ds → cs = ds
  | [], [], _ => rfl
  | [], _ :: _, h => by cases h
  | _ :: _, [], h => by cases h
  | c :: cs, d :: ds, h => by
    obtain ⟨hhead, hrest⟩ := List.cons.inj h
    rw [tree_inj hhead, trees_inj hrest]

end

theorem markup_injective : Function.Injective markup := by
  intro c d h
  have htrees := (spells_markup c).unique (h ▸ spells_markup d)
  exact tree_inj (List.cons.inj htrees).1

end Criterion

/-- The markup of nodes without feature ids is the same exactly when their criteria are. -/
theorem FilterMarkup.node_eq_iff {a b : Node} (ha : a.selectsIds = false)
    (hb : b.selectsIds = false) :
    writer.node a = writer.node b ↔ a.criterion? = b.criterion? := by
  rw [node_eq_markup ha, node_eq_markup hb]
  constructor
  · intro h
    cases hca : a.criterion? with
    | none =>
      cases hcb : b.criterion? with
      | none => rfl
      | some d =>
        rw [hca, hcb] at h
        exact absurd h.symm d.markup_ne_nil
    | some c =>
      cases hcb : b.criterion? with
      | none =>
        rw [hca, hcb] at h
        exact absurd h c.markup_ne_nil
      | some d =>
        rw [hca, hcb] at h
        exact congrArg some (Criterion.markup_injective h)
  · intro h
    rw [h]

/-- A pattern that holds an entity is told from the one whose character the entity stands for, and
nodes that say nothing leave no trace. -/
theorem FilterMarkup.node_eq_iff_of_entity_in_pattern :
    let like (op : Operator) (pattern : Text) : Node :=
      .compare ⟨op, "a<b", some (.text pattern), {}⟩
    let padded : Node :=
      .group .and [.malformed .unknownElement, like .notLike "&lt;*", .group .or []]
    writer.node padded = writer.node (.not (like .like "&lt;*")) ∧
      writer.node padded ≠ writer.node (.not (like .like "<*")) := by
  intro like padded
  constructor
  · exact (node_eq_iff rfl rfl).2 rfl
  · intro h
    have hcriteria : some (Criterion.not (.like "a<b" "&lt;*" {})) =
        some (.not (.like "a<b" "<*" {})) :=
      (node_eq_iff rfl rfl).1 h
    have hpattern := (Criterion.like.inj (Criterion.not.inj (Option.some.inj hcriteria))).2.1
    exact absurd hpattern (by decide)

end

end MapQuery
