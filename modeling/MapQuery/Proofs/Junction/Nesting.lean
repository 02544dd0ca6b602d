import MapQuery.Proofs.Predicate.Merging

/-!
# Nested texts

A text is nested when its parentheses match, whatever else it holds. A scan passes over a nested
text inside an open group, and the groups it finds are nested texts in parentheses.
-/

set_option autoImplicit false

namespace MapQuery

namespace Text

/-- The depth that a text ends at when it starts at some depth; there is none once a parenthesis is
closed that was not opened. -/
def depth? : Nat → Text → Option Nat
  | d, [] => some d
  | d, c :: t =>
    if c = '(' then depth? (d + 1) t
    else if c = ')' then
      match d with
      | 0 => none
      | d + 1 => depth? d t
    else depth? d t

/-- Whether the depth is never negative and zero at the end. -/
def IsNested (t : Text) : Prop := depth? 0 t = some 0

instance (t : Text) : Decidable t.IsNested := inferInstanceAs (Decidable (_ = _))

theorem depth?_append (d : Nat) (s t : Text) :
    depth? d (s ++ t) = (depth? d s).bind fun e => depth? e t := by
  induction s generalizing d with
  | nil => rfl
  | cons c s ih =>
    simp only [List.cons_append, depth?]
    split
    · exact ih (d + 1)
    · split
      · cases d with
        | zero => rfl
        | succ d => exact ih d
      · exact ih d

theorem depth?_add {d e : Nat} {t : Text} (h : depth? d t = some e) (k : Nat) :
    depth? (d + k) t = some (e + k) := by
  induction t generalizing d with
  | nil =>
    obtain rfl : d = e := by simpa [depth?] using h
    rfl
  | cons c t ih =>
    simp only [depth?] at h ⊢
    split at h
    · next hopen =>
      rw [if_pos hopen, Nat.add_right_comm]
      exact ih h
    · next hopen =>
      rw [if_neg hopen]
      split at h
      · next hclose =>
        rw [if_pos hclose]
        cases d with
        | zero => simp at h
        | succ d =>
          rw [Nat.add_right_comm]
          exact ih h
      · next hclose =>
        rw [if_neg hclose]
        exact ih h

theorem isNested_append_iff_left {s t : Text} (ht : t.IsNested) :
    (s ++ t).IsNested ↔ s.IsNested := by
  unfold IsNested
  rw [depth?_append]
  cases depth? 0 s with
  | none => rfl
  | some e =>
    have hlevel := depth?_add ht e
    rw [Nat.zero_add] at hlevel
    rw [Option.bind_some, hlevel]

theorem isNested_append_iff_right {s t : Text} (hs : s.IsNested) :
    (s ++ t).IsNested ↔ t.IsNested := by
  unfold IsNested at hs ⊢
  rw [depth?_append, hs, Option.bind_some]

theorem depth?_of_unbracketed {t : Text} (h : t.Unbracketed) (d : Nat) : depth? d t = some d := by
  induction t with
  | nil => rfl
  | cons c t ih =>
    obtain ⟨⟨hopen, hclose⟩, hrest⟩ := unbracketed_cons.1 h
    simp only [depth?, if_neg hopen, if_neg hclose]
    exact ih hrest

theorem unbracketed_of_isMark {t : Text} (h : ∀ c ∈ t, isMark c = false) : t.Unbracketed := by
  intro c hc
  have hmark := h c hc
  simp only [isMark, Bool.or_eq_false_iff, beq_eq_false_iff_ne] at hmark
  exact hmark.1

theorem unbracketed_of_blank {t : Text} (h : blank t = true) : t.Unbracketed :=
  unbracketed_of_isMark fun c hc => isMark_of_isBlank (isBlank_of_blank h c hc)

namespace IsNested

theorem of_unbracketed {t : Text} (h : t.Unbracketed) : t.IsNested := depth?_of_unbracketed h 0

theorem append {s t : Text} (hs : s.IsNested) (ht : t.IsNested) : (s ++ t).IsNested := by
  rw [IsNested, depth?_append, hs]
  exact ht

theorem paren {s : Text} (hs : s.IsNested) : (Text.paren s).IsNested := by
  have hinside : depth? 1 s = some 1 := depth?_add hs 1
  have hclose : depth? 1 (s ++ [')']) = some 0 := by
    rw [depth?_append, hinside]
    rfl
  exact hclose

theorem joined {separator : Text} (hseparator : separator.IsNested) {texts : List Text}
    (h : ∀ t ∈ texts, t.IsNested) : (Text.joined separator texts).IsNested :=
  joined_induction (P := IsNested) rfl (fun _ _ => append) hseparator h

theorem trim {t : Text} (h : t.IsNested) : (Text.trim t).IsNested := by
  obtain ⟨a, b, ha, hb, ht⟩ := exists_trim t
  rw [IsNested, ht, List.append_assoc, depth?_append,
    depth?_of_unbracketed (unbracketed_of_blank ha)] at h
  rw [Option.bind_some, depth?_append] at h
  obtain ⟨e, he, hend⟩ := Option.bind_eq_some_iff.1 h
  rw [depth?_of_unbracketed (unbracketed_of_blank hb), Option.some.injEq] at hend
  rw [IsNested, he, hend]

end IsNested
end Text

namespace Outline

def extendBy (t : Text) (o : Outline) : Outline := { o with openRest := t ++ o.openRest }

def widenBy (t : Text) (o : Outline) : Outline := { o with gap := t ++ o.gap }

@[simp] theorem extendBy_nil : extendBy [] = id := rfl

@[simp] theorem widenBy_nil : widenBy [] = id := rfl

theorem extend_eq (c : Char) : extend c = extendBy [c] := rfl

theorem widen_eq (c : Char) : widen c = widenBy [c] := rfl

@[simp] theorem extendBy_comp (s t : Text) : extendBy s ∘ extendBy t = extendBy (s ++ t) := by
  funext o
  simp [extendBy]

@[simp] theorem widenBy_comp (s t : Text) : widenBy s ∘ widenBy t = widenBy (s ++ t) := by
  funext o
  simp [widenBy]

theorem ofText?_zero_append {a : Text} (ha : a.Unbracketed) (t : Text) :
    ofText? 0 (a ++ t) = (ofText? 0 t).map (widenBy a) := by
  induction a with
  | nil => simp
  | cons c a ih =>
    obtain ⟨⟨hopen, hclose⟩, hrest⟩ := Text.unbracketed_cons.1 ha
    simp only [List.cons_append, ofText?, if_neg hopen, if_neg hclose,
      ih hrest, Option.map_map, widen_eq, widenBy_comp]
    rfl

/-- The scan passes over a text inside an open group while that group stays open. -/
theorem ofText?_of_depth? {k m : Nat} {s : Text} (h : Text.depth? k s = some m) (d : Nat)
    (t : Text) :
    ofText? (k + d + 1) (s ++ t) = (ofText? (m + d + 1) t).map (extendBy s) := by
  induction s generalizing k with
  | nil =>
    obtain rfl : k = m := by simpa [Text.depth?] using h
    simp
  | cons c s ih =>
    have hstep : ∀ {e}, Text.depth? e s = some m →
        (ofText? (e + d + 1) (s ++ t)).map (extend c) =
          (ofText? (m + d + 1) t).map (extendBy (c :: s)) := by
      intro e he
      rw [ih he, Option.map_map, extend_eq, extendBy_comp]
      rfl
    simp only [Text.depth?] at h
    simp only [List.cons_append, ofText?]
    split at h
    · next hopen =>
      have hdepth : k + d + 2 = k + 1 + d + 1 := by omega
      rw [if_pos hopen, hdepth]
      exact hstep h
    · next hopen =>
      rw [if_neg hopen]
      split at h
      · next hclose =>
        rw [if_pos hclose]
        cases k with
        | zero => simp at h
        | succ k =>
          have hdepth : k + 1 + d = k + d + 1 := by omega
          rw [hdepth]
          exact hstep h
      · next hclose =>
        rw [if_neg hclose]
        exact hstep h

/-- A nested text in parentheses is one group of a scan. -/
theorem ofText?_paren_append {s : Text} (h : s.IsNested) (t : Text) :
    ofText? 0 (Text.paren s ++ t) =
      (ofText? 0 t).map fun o => ⟨[], [], (Text.paren s, o.gap) :: o.groups⟩ := by
  have hclose : ofText? 1 (')' :: t) = (ofText? 0 t).map (extend ')') := by simp [ofText?]
  have hinside : ofText? 1 (s ++ ')' :: t) = (ofText? 1 (')' :: t)).map (extendBy s) :=
    ofText?_of_depth? h 0 (')' :: t)
  rw [hclose] at hinside
  simp only [Text.paren, List.cons_append, List.append_assoc, List.nil_append, ofText?, if_true,
    hinside, Option.map_map]
  refine Option.map_congr fun o ho => ?_
  have hrest := openRest_of_ofText?_zero ho
  simp [start, extendBy, extend, hrest]

theorem ofText?_paren {s : Text} (h : s.IsNested) :
    ofText? 0 (Text.paren s) = some ⟨[], [], [(Text.paren s, [])]⟩ := by
  simpa [ofText?] using ofText?_paren_append h []

/-- A text that ends outside every group has an outline, whose groups are nested texts in
parentheses. What is left of an open group at the start is what closes it. -/
theorem exists_of_depth?_zero {d : Nat} {t : Text} (h : Text.depth? d t = some 0) :
    ∃ o, ofText? d t = some o ∧ (∀ g ∈ o.groups, ∃ s, s.IsNested ∧ g.1 = Text.paren s) ∧
      ∀ e, d = e + 1 → ∃ s, Text.depth? e s = some 0 ∧ o.openRest = s ++ [')'] := by
  induction t generalizing d with
  | nil =>
    obtain rfl : d = 0 := by simpa [Text.depth?] using h
    exact ⟨_, rfl, by simp, by simp⟩
  | cons c t ih =>
    simp only [Text.depth?] at h
    split at h
    · next hopen =>
      subst hopen
      obtain ⟨o, ho, hgroups, hrest⟩ := ih h
      obtain ⟨s, hs, hopenRest⟩ := hrest d rfl
      cases d with
      | zero =>
        refine ⟨o.start, by simp [ofText?, ho], ?_, by simp⟩
        intro g hg
        rcases List.mem_cons.1 hg with rfl | hg
        · exact ⟨s, hs, by rw [hopenRest]; rfl⟩
        · exact hgroups g hg
      | succ d =>
        refine ⟨o.extend '(', by simp [ofText?, ho], hgroups, ?_⟩
        rintro e he
        obtain rfl : d = e := by omega
        exact ⟨'(' :: s, by simpa [Text.depth?] using hs, by simp [extend, hopenRest]⟩
    · next hopen =>
      split at h
      · next hclose =>
        subst hclose
        cases d with
        | zero => simp at h
        | succ d =>
          obtain ⟨o, ho, hgroups, hrest⟩ := ih h
          refine ⟨o.extend ')', by simp [ofText?, ho], hgroups, ?_⟩
          rintro e he
          obtain rfl : d = e := by omega
          cases d with
          | zero => exact ⟨[], rfl, by simp [extend, openRest_of_ofText?_zero ho]⟩
          | succ d =>
            obtain ⟨s, hs, hopenRest⟩ := hrest d rfl
            exact ⟨')' :: s, by simpa [Text.depth?] using hs, by simp [extend, hopenRest]⟩
      · next hclose =>
        obtain ⟨o, ho, hgroups, hrest⟩ := ih h
        cases d with
        | zero => exact ⟨o.widen c, by simp [ofText?, hopen, hclose, ho], hgroups, by simp⟩
        | succ d =>
          refine ⟨o.extend c, by simp [ofText?, hopen, hclose, ho], hgroups, ?_⟩
          rintro e he
          obtain ⟨s, hs, hopenRest⟩ := hrest e he
          exact ⟨c :: s, by simpa [Text.depth?, hopen, hclose] using hs,
            by simp [extend, hopenRest]⟩

theorem depth?_of_ofText? {d : Nat} {t : Text} {o : Outline} (h : ofText? d t = some o) :
    Text.depth? d t = some 0 := by
  fun_induction ofText? d t generalizing o with
  | case1 => rfl
  | case2 => cases h
  | case3 t ih =>
    obtain ⟨o', ho', -⟩ := Option.map_eq_some_iff.1 h
    exact ih ho'
  | case4 => cases h
  | case5 c t hopen hclose ih =>
    obtain ⟨o', ho', -⟩ := Option.map_eq_some_iff.1 h
    rw [Text.depth?, if_neg hopen, if_neg hclose]
    exact ih ho'
  | case6 d t ih =>
    obtain ⟨o', ho', -⟩ := Option.map_eq_some_iff.1 h
    exact ih ho'
  | case7 d t hopen ih =>
    obtain ⟨o', ho', -⟩ := Option.map_eq_some_iff.1 h
    exact ih ho'
  | case8 d c t hopen hclose ih =>
    obtain ⟨o', ho', -⟩ := Option.map_eq_some_iff.1 h
    rw [Text.depth?, if_neg hopen, if_neg hclose]
    exact ih ho'

end Outline

namespace Split

theorem eq_map_of_joinedGroups? {cuts : List (Text × Text)} {groups : List Text}
    {op : Option Connective} (h : joinedGroups? cuts = some (groups, op)) :
    groups = cuts.map Prod.fst := by
  induction cuts generalizing groups op with
  | nil => simp [joinedGroups?] at h
  | cons g rest ih =>
    cases rest with
    | nil =>
      obtain ⟨-, hx⟩ := blank_of_joinedGroups?_singleton h
      exact (Prod.mk.inj hx).1
    | cons next rest =>
      obtain ⟨op₁, groups', op₂, -, hrest, -, hx⟩ := exists_of_joinedGroups?_cons h
      rw [(Prod.mk.inj hx).1, ih hrest]
      rfl

theorem isSingleGroup_paren {s : Text} (h : s.IsNested) :
    isSingleGroup (Text.paren s) = true := by
  simp [isSingleGroup, Outline.ofText?_paren h]

/-- One group from the first to the last character is a nested text in parentheses. -/
theorem isSingleGroup_iff {t : Text} :
    isSingleGroup t = true ↔ ∃ s, s.IsNested ∧ t = Text.paren s := by
  constructor
  · intro h
    unfold isSingleGroup at h
    split at h
    · next rest g ho =>
      obtain ⟨o, ho', hgroups, -⟩ :=
        Outline.exists_of_depth?_zero (Outline.depth?_of_ofText? ho)
      obtain rfl := Option.some.inj (ho.symm.trans ho')
      obtain ⟨s, hs, hg⟩ := hgroups _ List.mem_cons_self
      have hrest : rest = [] := Outline.openRest_of_ofText?_zero ho
      have htext := Outline.text_of_ofText? ho
      refine ⟨s, hs, ?_⟩
      rw [← htext, ← hg, hrest]
      simp [Outline.text]
    · cases h
  · rintro ⟨s, hs, rfl⟩
    exact isSingleGroup_paren hs

theorem groupsOf?_paren {s : Text} (h : s.IsNested) :
    groupsOf? (Text.paren s) = some ([Text.paren s], none) := by
  simp [groupsOf?, Outline.ofText?_paren h, joinedGroups?]

theorem inside_paren (s : Text) : inside (Text.paren s) = s := by simp [inside, Text.paren]

/-- A nested text in parentheses is one group, which is looked into. -/
theorem ofText_paren {s : Text} (h : s.IsNested) :
    ofText (Text.paren s) =
      match groupsOf? s with
      | some (groups, some op) => .wrapped op groups
      | _ => .single (Text.paren s) := by
  rw [ofText, Text.trim_paren, groupsOf?_paren h]
  rcases hgroups : groupsOf? s with - | ⟨groups, - | op⟩
  all_goals simp only [List.headD_cons, inside_paren, hgroups]

theorem isNested_of_groupsOf? {t : Text} {x : List Text × Option Connective}
    (h : groupsOf? t = some x) : t.IsNested := by
  obtain ⟨o, ho, -⟩ := exists_outline_of_groupsOf? h
  exact Outline.depth?_of_ofText? ho

theorem exists_of_mem_groupsOf? {t : Text} (h : t.IsNested) {groups : List Text}
    {op : Option Connective} (hgroups : groupsOf? t = some (groups, op)) :
    ∀ g ∈ groups, ∃ s, s.IsNested ∧ g = Text.paren s := by
  obtain ⟨o, ho, hnested, -⟩ := Outline.exists_of_depth?_zero h
  obtain ⟨o', ho', -, hjoined⟩ := exists_outline_of_groupsOf? hgroups
  obtain rfl := Option.some.inj (ho.symm.trans ho')
  rw [eq_map_of_joinedGroups? hjoined]
  intro g hg
  obtain ⟨cut, hcut, rfl⟩ := List.mem_map.1 hg
  exact hnested cut hcut

theorem infix_of_mem_groupsOf? {t : Text} {groups : List Text} {op : Option Connective}
    (h : groupsOf? t = some (groups, op)) {g : Text} (hg : g ∈ groups) : g <:+: t := by
  obtain ⟨o, ho, -, hjoined⟩ := exists_outline_of_groupsOf? h
  rw [eq_map_of_joinedGroups? hjoined] at hg
  obtain ⟨cut, hcut, rfl⟩ := List.mem_map.1 hg
  have hcuts : cut.1 ++ cut.2 <:+: o.groups.flatMap fun c => c.1 ++ c.2 :=
    List.infix_of_mem_flatten (List.mem_map_of_mem hcut)
  rw [← Outline.text_of_ofText? ho]
  exact ((List.prefix_append _ _).isInfix.trans hcuts).trans (List.suffix_append _ _).isInfix

theorem ne_nil_of_groupsOf? {t : Text} {groups : List Text} {op : Option Connective}
    (h : groupsOf? t = some (groups, op)) :
    groups ≠ [] ∧ ∀ g ∈ groups, Text.blank g = false := by
  constructor
  · rintro rfl
    obtain ⟨o, -, -, hjoined⟩ := exists_outline_of_groupsOf? h
    cases hcuts : o.groups with
    | nil => simp [hcuts, joinedGroups?] at hjoined
    | cons cut rest =>
      rw [hcuts] at hjoined
      cases eq_map_of_joinedGroups? hjoined
  · intro g hg
    obtain ⟨s, -, rfl⟩ := exists_of_mem_groupsOf? (isNested_of_groupsOf? h) h g hg
    exact Text.blank_paren s

theorem two_le_length_of_groupsOf? {t : Text} {groups : List Text} {op : Connective}
    (h : groupsOf? t = some (groups, some op)) : 2 ≤ groups.length := by
  obtain ⟨o, -, -, hjoined⟩ := exists_outline_of_groupsOf? h
  rcases hcuts : o.groups with - | ⟨⟨g, gap⟩, - | ⟨next, rest⟩⟩
  · simp [hcuts, joinedGroups?] at hjoined
  · rw [hcuts] at hjoined
    obtain ⟨-, hx⟩ := blank_of_joinedGroups?_singleton hjoined
    simp at hx
  · have hgroups := eq_map_of_joinedGroups? hjoined
    simp [hgroups, hcuts]

theorem eq_of_groupsOf?_singleton {t g : Text} (ht : Text.trim t = t) (hnested : t.IsNested)
    (h : groupsOf? t = some ([g], none)) : t = g := by
  obtain ⟨s, -, rfl⟩ := exists_of_mem_groupsOf? hnested h g (by simp)
  obtain ⟨o, ho, hgap, hjoined⟩ := exists_outline_of_groupsOf? h
  obtain ⟨x, gap, hcuts, hx, hblank⟩ := eq_singleton_of_joinedGroups? hjoined
  obtain rfl : Text.paren s = x := by simpa using hx
  have htext := Outline.text_of_ofText? ho
  have hrest := Outline.openRest_of_ofText?_zero ho
  simp only [Outline.text, hrest, hcuts, List.nil_append, List.flatMap_cons, List.flatMap_nil,
    List.append_nil] at htext
  have htrim := congrArg Text.trim htext
  rw [Text.trim_append_of_blank_left hgap, Text.trim_append_of_blank_right hblank,
    Text.trim_paren, ht] at htrim
  exact htrim.symm

/-- A trimmed nested text is undivided, a run, or in parentheses as a whole. -/
theorem ofText_cases {t : Text} (ht : Text.trim t = t) (h : t.IsNested) :
    (groupsOf? t = none ∧ ofText t = .undivided) ∨
      (∃ groups op, groupsOf? t = some (groups, some op) ∧ ofText t = .run op groups) ∨
      ∃ s, s.IsNested ∧ t = Text.paren s := by
  cases hgroups : groupsOf? t with
  | none =>
    left
    simp [ofText, ht, hgroups]
  | some x =>
    right
    obtain ⟨groups, - | op⟩ := x
    · right
      obtain ⟨g, rfl⟩ := eq_singleton_of_groupsOf? hgroups
      obtain rfl := eq_of_groupsOf?_singleton ht h hgroups
      exact exists_of_mem_groupsOf? h hgroups t (by simp)
    · left
      exact ⟨groups, op, rfl, by simp [ofText, ht, hgroups]⟩

end Split

theorem Junction.members_paren (op : Connective) {s : Text} (h : s.IsNested) :
    members op (Text.paren s) =
      match Split.groupsOf? s with
      | some (groups, some op') => if op' = op then groups else [Text.paren s]
      | _ => [Text.paren s] := by
  have hne : (Text.paren s).isEmpty = false := rfl
  simp only [members, Text.trim_paren, hne, Bool.false_eq_true, if_false, Split.ofText_paren h]
  rcases Split.groupsOf? s with - | ⟨groups, - | op'⟩ <;> rfl

theorem Junction.infix_of_mem_members_paren {op : Connective} {s m : Text} (h : s.IsNested)
    (hm : m ∈ members op (Text.paren s)) : m <:+: Text.paren s := by
  have hinside : m ∈ [Text.paren s] → m <:+: Text.paren s := by
    intro hself
    obtain rfl := List.mem_singleton.1 hself
    exact List.infix_rfl
  rw [members_paren op h] at hm
  split at hm
  · next groups op' hgroups =>
    split at hm
    · exact (Split.infix_of_mem_groupsOf? hgroups hm).trans (List.infix_append ['('] s [')'])
    · exact hinside hm
  · exact hinside hm

end MapQuery
