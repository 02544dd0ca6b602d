import MapQuery.Dialect.PredicateText
import MapQuery.Proofs.Predicate.Plain

/-!
# Clauses

A clause is a shielded text that is one group when it is shown, or empty when there is nothing to
say. Joining, merging and negating make clauses of clauses.
-/

set_option autoImplicit false

namespace MapQuery

open Quotation (restore)

variable {v : Text → Bool} {op : Connective}

/-- Whether a text is a clause of the given truth. -/
inductive Clause (v : Text → Bool) : Text → Option Bool → Prop where
  | empty : Clause v [] none
  | group {s : Text} {b : Bool} : Segment s → IsGroup .restored v (Text.paren s) b →
      Clause v (Text.paren s) (some b)

namespace Clause

theorem contributes {t : Text} {o : Option Bool} (h : Clause v t o) :
    Contributes .restored v t o := by
  cases h with
  | empty => exact .blank rfl
  | @group s b hs hgroup =>
    obtain ⟨k, hk, htext, rfl⟩ := hgroup
    have hread := Level.ofText?_paren hk
    have hmeaning : (Level.empty.before k.group).meaning = k.meaning := rfl
    rw [← hmeaning]
    exact .reading rfl ((congrArg Level.ofText? htext).trans hread) hs.heedsThroughout_paren

theorem of_isFragment {t : Text} {o : Option Bool} (h : IsFragment .restored v t o)
    (ht : t = [] ∨ ∃ s, Segment s ∧ t = Text.paren s) : Clause v t o := by
  cases h with
  | empty => exact empty
  | group hgroup =>
    rcases ht with rfl | ⟨s, hs, rfl⟩
    · obtain ⟨k, -, htext, -⟩ := hgroup
      simp [Rendering.text, Level.group, Text.paren] at htext
    · exact group hs hgroup

theorem shape_joinMembers {groups : List Text}
    (h : ∀ g ∈ groups, ∃ s, Segment s ∧ g = Text.paren s) :
    Junction.joinMembers op groups = [] ∨
      ∃ s, Segment s ∧ Junction.joinMembers op groups = Text.paren s := by
  have hsegments : ∀ g ∈ groups, Segment g := by
    intro g hg
    obtain ⟨s, hs, rfl⟩ := h g hg
    exact hs.paren
  have hseparator : Segment op.separator := .of_plain (by cases op <;> decide)
  rcases groups with - | ⟨g, - | ⟨g', rest⟩⟩
  · exact .inl rfl
  · exact .inr (h g (by simp))
  · exact .inr ⟨_, Segment.joined hseparator hsegments, rfl⟩

theorem merge {texts : List Text} {os : List (Option Bool)}
    (h : List.Forall₂ (Clause v) texts os) :
    Clause v (Junction.merge op texts) (op.holds? os) := by
  refine of_isFragment (isFragment_merge (h.imp fun _ _ => contributes)) (shape_joinMembers ?_)
  induction h with
  | nil => simp
  | cons ht _ ih =>
    intro m hm
    rcases List.mem_append.1 hm with hm | hm
    · cases ht with
      | empty => cases hm
      | group hs _ => exact hs.exists_of_mem_members m hm
    · exact ih m hm

theorem joinParts_eq {w : Writer} (hjoin : w.join = PredicateText.join) (texts : List Text) :
    w.joinParts op texts = Junction.joinMembers op (texts.filter fun t => !t.isEmpty) := by
  unfold Writer.joinParts
  rw [hjoin]
  rcases texts.filter fun t => !t.isEmpty with - | ⟨t, - | ⟨u, rest⟩⟩ <;> rfl

theorem groups_of_clauses {texts : List Text} {os : List (Option Bool)}
    (h : List.Forall₂ (Clause v) texts os) :
    List.Forall₂ (IsGroup .restored v) (texts.filter fun t => !t.isEmpty) (os.filterMap id) ∧
      ∀ t ∈ texts.filter fun t => !t.isEmpty, ∃ s, Segment s ∧ t = Text.paren s := by
  induction h with
  | nil => exact ⟨.nil, by simp⟩
  | cons ht _ ih =>
    obtain ⟨hgroups, hshape⟩ := ih
    cases ht with
    | empty => exact ⟨hgroups, hshape⟩
    | group hs hgroup =>
      refine ⟨.cons hgroup hgroups, ?_⟩
      intro t ht
      rcases List.mem_cons.1 ht with rfl | ht
      · exact ⟨_, hs, rfl⟩
      · exact hshape t ht

theorem joinParts {w : Writer} (hjoin : w.join = PredicateText.join) {texts : List Text}
    {os : List (Option Bool)} (h : List.Forall₂ (Clause v) texts os) :
    Clause v (w.joinParts op texts) (op.holds? os) := by
  obtain ⟨hgroups, hshape⟩ := groups_of_clauses h
  rw [joinParts_eq hjoin]
  exact of_isFragment (isFragment_joinMembers hgroups Iff.rfl rfl) (shape_joinMembers hshape)

theorem negate {t : Text} {o : Option Bool} (h : Clause v t o) :
    Clause v (if t.isEmpty then [] else PredicateText.negate t) (o.map (!·)) := by
  cases h with
  | empty => exact empty
  | @group s b hs hgroup =>
    obtain ⟨k, hk, htext, rfl⟩ := hgroup
    have hplain : Text.Plain "NOT " := by decide
    have hgroup : Level.ofText? k.group.text = some (Level.empty.before k.group) :=
      Level.ofText?_paren hk
    have hread : Level.ofText? (Rendering.restored.text ("NOT " ++ Text.paren s)) =
        some ((Level.empty.before k.group).widenBy "NOT ") := by
      rw [Rendering.text_append, htext, hplain.shown,
        Level.ofText?_unmarked hplain.isMark_eq_false, hgroup]
      rfl
    have hmeaning : ((Level.empty.before k.group).widenBy "NOT ").meaning = .not k.meaning := rfl
    have hnegated := isGroup_paren (v := v) hread
    rw [hmeaning] at hnegated
    exact group ((Segment.of_plain hplain).append hs.paren) hnegated

end Clause

/-- The text of a leaf as it is shown, without its parentheses. -/
def leafText (t : Text) : Text := Text.trim (restore (Split.inside t))

/-- Whether a shielded text in parentheses is a leaf by what it starts with: a plain text that is
neither blank nor a keyword of negation. -/
def IsLeaf (t : Text) : Prop :=
  ∃ a b : Text, t = Text.paren (a ++ b) ∧ a.Plain ∧ Segment b ∧
    ∃ c ∈ a, isBlank c = false ∧ c.toLower ∉ Text.lowerAscii "NOT"

theorem not_sameLetters_of_mem {a t : Text} {c : Char} (hc : c ∈ a) (hblank : isBlank c = false)
    (hletter : c.toLower ∉ Text.lowerAscii "NOT") :
    Text.sameLetters (Text.trim (a ++ t)) "NOT" = false := by
  have htrim : c ∈ Text.trim (a ++ t) := Text.mem_trim hblank (List.mem_append_left t hc)
  cases hsame : Text.sameLetters (Text.trim (a ++ t)) "NOT" with
  | false => rfl
  | true =>
    rw [Text.sameLetters, beq_iff_eq] at hsame
    rw [← hsame] at hletter
    exact absurd (List.mem_map_of_mem htrim) hletter

theorem Clause.leaf {t : Text} (h : IsLeaf t) : Clause v t (some (v (leafText t))) := by
  obtain ⟨a, b, rfl, ha, hb, c, hc, hblank, hletter⟩ := h
  obtain ⟨-, l, -, hl, -⟩ := hb.exists_scannedAs
  have hread : Level.ofText? (Rendering.restored.text (a ++ b)) = some (l.widenBy a) := by
    rw [Rendering.text_append, ha.shown, Level.ofText?_unmarked ha.isMark_eq_false,
      Rendering.text_restored, hl]
    rfl
  have htext := Level.text_of_ofText? hread
  have hgap : Text.blank (a ++ l.gap) = false := by
    rw [Text.blank, List.all_eq_false]
    exact ⟨c, List.mem_append_left _ hc, by simp [hblank]⟩
  have hnot : (l.widenBy a).negated? = none := by
    have hletters := not_sameLetters_of_mem (t := l.gap) hc hblank hletter
    unfold Level.negated?
    split
    · rw [if_neg]
      rintro ⟨hsame, -⟩
      exact Bool.false_ne_true (hletters.symm.trans hsame)
    · rfl
  have hmeaning : (l.widenBy a).meaning = .leaf (Text.trim (restore (a ++ b))) := by
    rw [Level.meaning, hnot, htext]
    simp [Level.widenBy, hgap]
  have hinside : leafText (Text.paren (a ++ b)) = Text.trim (restore (a ++ b)) := by
    simp [leafText, Split.inside, Text.paren]
  have hgroup := isGroup_paren (v := v) hread
  rw [hmeaning] at hgroup
  rw [hinside]
  exact .group ((Segment.of_plain ha).append hb) hgroup

end MapQuery
