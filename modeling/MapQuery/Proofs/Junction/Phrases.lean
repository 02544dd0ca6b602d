import MapQuery.Proofs.Junction.Nesting

/-!
# Phrases in merged texts

A merge takes texts apart at their top-level parentheses and nowhere else, and only keywords may
stand between the groups. So a phrase that begins with another word, such as a name with its
arguments in parentheses, is never taken apart, however the text around it divides: where it stands
in one of the texts it stands in the merged one.
-/

set_option autoImplicit false

namespace MapQuery

namespace Text

instance (t : Text) : Decidable t.Unbracketed :=
  List.decidableBAll (fun c => c ≠ '(' ∧ c ≠ ')') t

theorem infix_joined {separator t : Text} {texts : List Text} (h : t ∈ texts) :
    t <:+: joined separator texts := by
  fun_induction joined separator texts with
  | case1 => cases h
  | case2 u =>
    obtain rfl := List.mem_singleton.1 h
    exact List.infix_rfl
  | case3 u v rest ih =>
    rcases List.mem_cons.1 h with rfl | h
    · rw [List.append_assoc]
      exact (List.prefix_append t _).isInfix
    · exact (ih h).trans (List.suffix_append _ _).isInfix

theorem infix_paren (t : Text) : t <:+: paren t := ⟨['('], [')'], rfl⟩

/-- What starts with no blank is found behind the blanks of a text. -/
theorem infix_trimStart {c : Char} {w t : Text} (hc : isBlank c = false) (h : c :: w <:+: t) :
    c :: w <:+: trimStart t := by
  induction t with
  | nil => exact h
  | cons d t ih =>
    by_cases hd : isBlank d = true
    · rw [trimStart, List.dropWhile_cons_of_pos hd]
      refine ih ((List.infix_cons_iff.1 h).resolve_left fun hprefix => ?_)
      rw [(List.cons_prefix_cons.1 hprefix).1, hd] at hc
      cases hc
    · rwa [trimStart, List.dropWhile_cons_of_neg hd]

theorem infix_trimEnd {c : Char} {w t : Text} (hc : isBlank c = false) (h : w ++ [c] <:+: t) :
    w ++ [c] <:+: trimEnd t := by
  rw [← List.reverse_infix, List.reverse_append] at h ⊢
  rw [trimEnd, List.reverse_reverse]
  exact infix_trimStart hc h

/-- A name and what follows it, which is nested. They start and end with no blank, and a letter of
the name is in no keyword. -/
structure IsPhrase (name rest : Text) : Prop where
  unbracketed : name.Unbracketed
  nested : rest.IsNested
  head : ∃ c more, name = c :: more ∧ isBlank c = false
  last : ∃ front c, name ++ rest = front ++ [c] ∧ isBlank c = false
  letter : ∃ c ∈ name, isBlank c = false ∧ c.toLower ∉ "and".toList ∧ c.toLower ∉ "or".toList

/-- A name and nested arguments. The name starts with no blank, and one of its letters is in no
keyword. -/
structure IsCall (name arguments : Text) : Prop where
  unbracketed : name.Unbracketed
  nested : arguments.IsNested
  head : ∃ c rest, name = c :: rest ∧ isBlank c = false
  letter : ∃ c ∈ name, isBlank c = false ∧ c.toLower ∉ "and".toList ∧ c.toLower ∉ "or".toList

theorem IsCall.isPhrase {name arguments : Text} (h : IsCall name arguments) :
    IsPhrase name (paren arguments) where
  unbracketed := h.unbracketed
  nested := h.nested.paren
  head := h.head
  last := ⟨name ++ '(' :: arguments, ')', by simp [paren], by decide⟩
  letter := h.letter

namespace IsPhrase

variable {name rest : Text}

theorem isNested (h : IsPhrase name rest) : (name ++ rest).IsNested :=
  (IsNested.of_unbracketed h.unbracketed).append h.nested

theorem infix_trim (h : IsPhrase name rest) {t : Text} (ht : name ++ rest <:+: t) :
    name ++ rest <:+: trim t := by
  obtain ⟨front, d, hend, hd⟩ := h.last
  obtain ⟨c, more, rfl, hc⟩ := h.head
  have hstart : c :: more ++ rest <:+: trimStart t := infix_trimStart hc ht
  rw [hend] at hstart ⊢
  exact infix_trimEnd hd hstart

/-- The name stands in no gap between groups. -/
theorem not_infix_blank (h : IsPhrase name rest) {gap : Text} (hgap : blank gap = true) :
    ¬ name <:+: gap := by
  intro hin
  obtain ⟨c, hc, hblank, -⟩ := h.letter
  rw [isBlank_of_blank hgap c (hin.subset hc)] at hblank
  cases hblank

theorem not_infix_keyword (h : IsPhrase name rest) {gap : Text} {op : Connective}
    (hgap : Connective.ofKeyword? (trim gap) = some op) : ¬ name <:+: gap := by
  intro hin
  obtain ⟨c, hc, hblank, hand, hor⟩ := h.letter
  rcases Connective.mem_letters_of_ofKeyword? hgap c (mem_trim hblank (hin.subset hc)) with
    hmem | hmem
  · exact hand hmem
  · exact hor hmem

end IsPhrase
end Text

open Text (IsPhrase)

variable {name rest : Text}

theorem infix_dropLast_cons {w t : Text} (h : w <:+: t.dropLast) (c : Char) :
    w <:+: (c :: t).dropLast := by
  cases t with
  | nil =>
    rw [List.infix_nil.1 h]
    exact List.nil_infix
  | cons d t => exact List.infix_cons h

namespace Outline

/-- Inside an open group every character belongs to the group. -/
theorem exists_ofText?_succ (d : Nat) (c : Char) (t : Text) :
    ∃ e, ofText? (d + 1) (c :: t) = (ofText? e t).map (extend c) := by
  simp only [ofText?]
  split
  · exact ⟨_, rfl⟩
  · split
    · exact ⟨_, rfl⟩
    · exact ⟨_, rfl⟩

theorem openRest_ne_nil {d : Nat} {t : Text} {o : Outline} (h : ofText? (d + 1) t = some o) :
    o.openRest ≠ [] := by
  cases t with
  | nil => cases h
  | cons c t =>
    obtain ⟨e, he⟩ := exists_ofText?_succ d c t
    rw [h] at he
    obtain ⟨u, -, rfl⟩ := Option.map_eq_some_iff.1 he.symm
    exact List.cons_ne_nil _ _

/-- Whether a phrase stands inside of one group, or its name in a gap. -/
def Shows (name rest : Text) (o : Outline) : Prop :=
  name ++ rest <:+: o.openRest.dropLast ∨ name <:+: o.gap ∨
    ∃ g ∈ o.groups, name ++ rest <:+: Split.inside g.1 ∨ name <:+: g.2

theorem shows_of_ofText? (h : IsPhrase name rest) {d : Nat} {t : Text} {o : Outline}
    (ho : ofText? d t = some o) (hin : name ++ rest <:+: t) : o.Shows name rest := by
  obtain ⟨a, b, rfl⟩ := hin
  rw [List.append_assoc] at ho
  induction a generalizing d o with
  | nil =>
    rw [List.nil_append] at ho
    cases d with
    | zero =>
      rw [List.append_assoc, ofText?_zero_append h.unbracketed] at ho
      obtain ⟨u, -, rfl⟩ := Option.map_eq_some_iff.1 ho
      exact .inr (.inl (List.prefix_append name u.gap).isInfix)
    | succ d =>
      have hpass := ofText?_of_depth? h.isNested d b
      rw [Nat.zero_add, ho] at hpass
      obtain ⟨u, hu, rfl⟩ := Option.map_eq_some_iff.1 hpass.symm
      left
      rw [extendBy, List.dropLast_append_of_ne_nil (openRest_ne_nil hu)]
      exact (List.prefix_append _ _).isInfix
  | cons c a ih =>
    rw [List.cons_append] at ho
    cases d with
    | zero =>
      simp only [ofText?] at ho
      split at ho
      · obtain ⟨u, hu, rfl⟩ := Option.map_eq_some_iff.1 ho
        rcases ih hu with hrest | hgap | ⟨g, hg, hgroup⟩
        · exact .inr (.inr ⟨_, List.mem_cons_self, .inl hrest⟩)
        · exact .inr (.inr ⟨_, List.mem_cons_self, .inr hgap⟩)
        · exact .inr (.inr ⟨g, List.mem_cons_of_mem _ hg, hgroup⟩)
      · split at ho
        · cases ho
        · obtain ⟨u, hu, rfl⟩ := Option.map_eq_some_iff.1 ho
          rcases ih hu with hrest | hgap | hgroup
          · exact .inl hrest
          · exact .inr (.inl (List.infix_cons hgap))
          · exact .inr (.inr hgroup)
    | succ d =>
      obtain ⟨e, he⟩ := exists_ofText?_succ d c (a ++ (name ++ rest ++ b))
      rw [ho] at he
      obtain ⟨u, hu, rfl⟩ := Option.map_eq_some_iff.1 he.symm
      rcases ih hu with hrest | hgroups
      · exact .inl (infix_dropLast_cons hrest c)
      · exact .inr hgroups

end Outline

namespace Split

theorem not_infix_of_joinedGroups? (h : IsPhrase name rest) {cuts : List (Text × Text)}
    {groups : List Text} {op : Option Connective} (hjoined : joinedGroups? cuts = some (groups, op))
    {g : Text × Text} (hg : g ∈ cuts) : ¬ name <:+: g.2 := by
  induction cuts generalizing groups op with
  | nil => cases hg
  | cons cut more ih =>
    cases more with
    | nil =>
      rw [List.mem_singleton.1 hg]
      exact h.not_infix_blank (blank_of_joinedGroups?_singleton hjoined).1
    | cons next more =>
      obtain ⟨op', groups', op'', hkeyword, hrest, -, -⟩ := exists_of_joinedGroups?_cons hjoined
      rcases List.mem_cons.1 hg with rfl | hg
      · exact h.not_infix_keyword hkeyword
      · exact ih hrest hg

/-- A phrase in a run of groups stands inside of one of them. -/
theorem exists_infix_of_groupsOf? (h : IsPhrase name rest) {t : Text} {groups : List Text}
    {op : Option Connective} (hgroups : groupsOf? t = some (groups, op))
    (hin : name ++ rest <:+: t) : ∃ g ∈ groups, name ++ rest <:+: inside g := by
  obtain ⟨o, ho, hgap, hjoined⟩ := exists_outline_of_groupsOf? hgroups
  rcases Outline.shows_of_ofText? h ho hin with hrest | hname | ⟨g, hg, hinside | hname⟩
  · rw [Outline.openRest_of_ofText?_zero ho] at hrest
    obtain ⟨c, more, rfl, -⟩ := h.head
    cases List.infix_nil.1 hrest
  · exact absurd hname (h.not_infix_blank hgap)
  · rw [eq_map_of_joinedGroups? hjoined]
    exact ⟨g.1, List.mem_map_of_mem hg, hinside⟩
  · exact absurd hname (not_infix_of_joinedGroups? h hjoined hg)

end Split

namespace Junction

theorem infix_inside (g : Text) : Split.inside g <:+: g :=
  (List.dropLast_prefix _).isInfix.trans (List.tail_suffix g).isInfix

/-- A phrase stands in one of the groups that its text gives to a join. -/
theorem exists_infix_members (h : IsPhrase name rest) {t : Text} (hin : name ++ rest <:+: t)
    (op : Connective) : ∃ m ∈ members op t, name ++ rest <:+: m := by
  have htrim := h.infix_trim hin
  have hne : (Text.trim t).isEmpty = false := by
    rw [List.isEmpty_eq_false_iff]
    intro hnil
    obtain ⟨c, more, rfl, -⟩ := h.head
    rw [hnil] at htrim
    cases List.infix_nil.1 htrim
  have hwhole : name ++ rest <:+: Text.paren (Text.trim t) := htrim.trans (Text.infix_paren _)
  simp only [members, hne, Bool.false_eq_true, if_false, Split.ofText, Text.trim_trim]
  cases hgroups : Split.groupsOf? (Text.trim t) with
  | none => exact ⟨_, List.mem_singleton_self _, hwhole⟩
  | some x =>
    obtain ⟨groups, op'⟩ := x
    obtain ⟨g, hg, hinside⟩ := Split.exists_infix_of_groupsOf? h hgroups htrim
    cases op' with
    | some op' =>
      simp only
      split
      · exact ⟨g, hg, hinside.trans (infix_inside g)⟩
      · exact ⟨_, List.mem_singleton_self _, hwhole⟩
    | none =>
      obtain ⟨g', rfl⟩ := Split.eq_singleton_of_groupsOf? hgroups
      obtain rfl := List.mem_singleton.1 hg
      simp only [List.headD_cons]
      cases hinner : Split.groupsOf? (Split.inside g) with
      | none => exact ⟨g, List.mem_singleton_self g, hinside.trans (infix_inside g)⟩
      | some x =>
        obtain ⟨inner, - | op'⟩ := x
        · exact ⟨g, List.mem_singleton_self g, hinside.trans (infix_inside g)⟩
        · simp only
          split
          · obtain ⟨m, hm, hphrase⟩ := Split.exists_infix_of_groupsOf? h hinner hinside
            exact ⟨m, hm, hphrase.trans (infix_inside m)⟩
          · exact ⟨_, List.mem_singleton_self _, htrim⟩

theorem infix_joinMembers {w m : Text} {ms : List Text} (hm : m ∈ ms) (h : w <:+: m)
    (op : Connective) : w <:+: joinMembers op ms := by
  unfold joinMembers
  split
  · cases hm
  · rwa [← List.mem_singleton.1 hm]
  · exact (h.trans (Text.infix_joined hm)).trans (Text.infix_paren _)

/-- What stands in a group of one of the texts stands in the merged text. -/
theorem infix_merge_of_mem_members {w t m : Text} {texts : List Text} {op : Connective}
    (ht : t ∈ texts) (hm : m ∈ members op t) (h : w <:+: m) : w <:+: merge op texts :=
  infix_joinMembers (List.mem_flatMap.2 ⟨t, ht, hm⟩) h op

/-- A phrase that stands in one of the texts stands in the merged text. -/
theorem infix_merge (h : IsPhrase name rest) {texts : List Text} {t : Text} (ht : t ∈ texts)
    (hin : name ++ rest <:+: t) (op : Connective) : name ++ rest <:+: merge op texts := by
  obtain ⟨m, hm, hphrase⟩ := exists_infix_members h hin op
  exact infix_merge_of_mem_members ht hm hphrase

end Junction
end MapQuery
