import MapQuery.Proofs.Junction.Nesting

/-!
# The grammar of divided texts

A text divides if it is a sequence of groups with the keyword of one operator between every two of
them. The scan finds exactly these sequences, and what it leaves out is blanks, keywords and the
parentheses around a lone group that is looked into.
-/

set_option autoImplicit false

namespace MapQuery

namespace Text

/-- Texts whose parentheses match, as a grammar. -/
inductive Balanced : Text → Prop where
  | nil : Balanced []
  | plain {c : Char} {t : Text} : c ≠ '(' → c ≠ ')' → Balanced t → Balanced (c :: t)
  | group {s t : Text} : Balanced s → Balanced t → Balanced (paren s ++ t)

/-- A balanced text in parentheses. -/
def IsBracketed (g : Text) : Prop := ∃ s, Balanced s ∧ g = paren s

theorem Balanced.append {s t : Text} (hs : Balanced s) (ht : Balanced t) : Balanced (s ++ t) := by
  induction hs with
  | nil => exact ht
  | plain hopen hclose _ ih => exact .plain hopen hclose ih
  | group hs _ _ ih =>
    rw [List.append_assoc]
    exact .group hs ih

theorem Balanced.isNested {t : Text} (h : Balanced t) : t.IsNested := by
  induction h with
  | nil => rfl
  | plain hopen hclose _ ih =>
    rw [IsNested, depth?, if_neg hopen, if_neg hclose]
    exact ih
  | group _ _ ihs iht => exact ihs.paren.append iht

/-- What closes a number of open groups: before each of them is closed the text is balanced. -/
inductive Closes : Nat → Text → Prop where
  | done {t : Text} : Balanced t → Closes 0 t
  | close {d : Nat} {s t : Text} : Balanced s → Closes d t → Closes (d + 1) (s ++ ')' :: t)

theorem Closes.append {d : Nat} {s t : Text} (hs : Balanced s) (ht : Closes d t) :
    Closes d (s ++ t) := by
  cases ht with
  | done ht => exact .done (hs.append ht)
  | close hu ht =>
    rw [← List.append_assoc]
    exact .close (hs.append hu) ht

theorem closes_of_depth? {d : Nat} {t : Text} (h : depth? d t = some 0) : Closes d t := by
  induction t generalizing d with
  | nil =>
    obtain rfl : d = 0 := by simpa [depth?] using h
    exact .done .nil
  | cons c t ih =>
    simp only [depth?] at h
    split at h
    · next hopen =>
      subst hopen
      -- What closes one group more is a group followed by what closes the others.
      cases ih h with
      | @close _ s u hs hu =>
        have hgroup := hu.append (Balanced.group hs .nil)
        simpa [paren] using hgroup
    · next hopen =>
      split at h
      · next hclose =>
        subst hclose
        cases d with
        | zero => cases h
        | succ d => exact .close .nil (ih h)
      · next hclose => exact (ih h).append (.plain hopen hclose .nil)

/-- The grammar and the fold of depths describe the same texts. -/
theorem balanced_iff {t : Text} : Balanced t ↔ t.IsNested := by
  constructor
  · exact Balanced.isNested
  · intro h
    cases closes_of_depth? h with
    | done ht => exact ht

theorem isBracketed_iff {g : Text} : g.IsBracketed ↔ Split.isSingleGroup g = true := by
  simp only [IsBracketed, balanced_iff, Split.isSingleGroup_iff]

end Text

namespace Split

open Text (IsBracketed)

/-- Blanks around the keyword of an operator, in any ASCII case. -/
def IsGap (op : Connective) (gap : Text) : Prop :=
  Text.lowerAscii (Text.trim gap) = Text.lowerAscii op.keyword

/-- Groups with the keyword of one operator between every two of them, and the text that they
make up. -/
inductive Sequence (op : Connective) : List Text → Text → Prop where
  | lone {g : Text} : IsBracketed g → Sequence op [g] g
  | more {g gap t : Text} {groups : List Text} : IsBracketed g → IsGap op gap →
      Sequence op groups t → Sequence op (g :: groups) (g ++ gap ++ t)

theorem isGap_iff {op : Connective} {gap : Text} :
    IsGap op gap ↔ Connective.ofKeyword? (Text.trim gap) = some op := by
  have hdistinct : Text.lowerAscii "OR" ≠ Text.lowerAscii "AND" := by decide
  simp only [IsGap, Connective.ofKeyword?, Text.sameLetters, beq_iff_eq]
  cases op with
  | and =>
    constructor
    · intro h
      exact if_pos h
    · intro h
      split at h
      · next hand => exact hand
      · split at h <;> cases h
  | or =>
    constructor
    · intro h
      exact (if_neg (h.trans_ne hdistinct)).trans (if_pos h)
    · intro h
      split at h
      · cases h
      · split at h
        · next hor => exact hor
        · cases h

theorem IsGap.unbracketed {op : Connective} {gap : Text} (h : IsGap op gap) :
    gap.Unbracketed := by
  obtain ⟨a, b, ha, hb, hgap⟩ := Text.exists_trim gap
  intro c hc
  rw [hgap, List.mem_append, List.mem_append] at hc
  rcases hc with (hc | hc) | hc
  · exact Text.unbracketed_of_blank ha c hc
  · have hletters := Connective.mem_letters_of_ofKeyword? (isGap_iff.1 h) c hc
    constructor
    · rintro rfl
      exact absurd hletters (by decide)
    · rintro rfl
      exact absurd hletters (by decide)
  · exact Text.unbracketed_of_blank hb c hc

namespace Sequence

variable {op : Connective} {groups : List Text} {t : Text}

theorem isBracketed (h : Sequence op groups t) : ∀ g ∈ groups, IsBracketed g := by
  induction h with
  | lone hg =>
    intro g hmem
    rw [List.mem_singleton.1 hmem]
    exact hg
  | more hg _ _ ih =>
    intro g hmem
    rcases List.mem_cons.1 hmem with rfl | hmem
    · exact hg
    · exact ih g hmem

theorem trim_eq (h : Sequence op groups t) : Text.trim t = t := by
  obtain ⟨u, hu⟩ : ∃ u, t = Text.paren u := by
    induction h with
    | lone hg =>
      obtain ⟨s, -, rfl⟩ := hg
      exact ⟨s, rfl⟩
    | @more _ gap _ _ hg _ _ ih =>
      obtain ⟨s, -, rfl⟩ := hg
      obtain ⟨u, rfl⟩ := ih
      exact ⟨s ++ ')' :: gap ++ '(' :: u, by simp [Text.paren]⟩
  rw [hu, Text.trim_paren]

theorem eq_of_singleton {g : Text} (h : Sequence op [g] t) : t = g := by
  cases h with
  | lone => rfl
  | more _ _ hrest => cases hrest

/-- Blanks behind a sequence are no hindrance to the scan. -/
theorem exists_outline (h : Sequence op groups t) {b : Text} (hb : Text.blank b = true) :
    ∃ cuts, Outline.ofText? 0 (t ++ b) = some ⟨[], [], cuts⟩ ∧
      joinedGroups? cuts = some (groups, if groups.length = 1 then none else some op) := by
  induction h with
  | @lone g hg =>
    obtain ⟨s, hs, rfl⟩ := hg
    have hend := Outline.ofText?_zero_append (Text.unbracketed_of_blank hb) []
    rw [List.append_nil] at hend
    refine ⟨[(Text.paren s, b)], ?_, ?_⟩
    · rw [Outline.ofText?_paren_append hs.isNested, hend]
      simp [Outline.ofText?, Outline.widenBy]
    · have hblank : b.all isBlank = true := hb
      simp [joinedGroups?, hblank]
  | @more g gap u groups hg hgap _ ih =>
    obtain ⟨s, hs, rfl⟩ := hg
    obtain ⟨cuts, hscan, hjoined⟩ := ih
    have hrest := Outline.ofText?_zero_append hgap.unbracketed (u ++ b)
    rw [hscan] at hrest
    refine ⟨(Text.paren s, gap) :: cuts, ?_, ?_⟩
    · rw [List.append_assoc, List.append_assoc, Outline.ofText?_paren_append hs.isNested, hrest]
      simp [Outline.widenBy]
    · cases cuts with
      | nil => simp [joinedGroups?] at hjoined
      | cons cut cuts =>
        have hne : groups ≠ [] := by
          rintro rfl
          cases eq_map_of_joinedGroups? hjoined
        simp only [joinedGroups?, isGap_iff.1 hgap, hjoined]
        split <;> simp [hne]

end Sequence

/-- Groups that the scan joins are a sequence, up to blanks behind the last of them. -/
theorem exists_sequence_of_joinedGroups? {cuts : List (Text × Text)} {groups : List Text}
    {op? : Option Connective} (hcuts : ∀ cut ∈ cuts, IsBracketed cut.1)
    (h : joinedGroups? cuts = some (groups, op?)) {op : Connective} (hop : op?.all (· == op)) :
    ∃ u b, Text.blank b = true ∧ cuts.flatMap (fun cut => cut.1 ++ cut.2) = u ++ b ∧
      Sequence op groups u ∧ op? = if groups.length = 1 then none else some op := by
  induction cuts generalizing groups op? with
  | nil => simp [joinedGroups?] at h
  | cons cut rest ih =>
    obtain ⟨g, gap⟩ := cut
    have hg : IsBracketed g := hcuts (g, gap) List.mem_cons_self
    cases rest with
    | nil =>
      obtain ⟨hblank, hx⟩ := blank_of_joinedGroups?_singleton h
      obtain ⟨rfl, rfl⟩ := Prod.mk.inj hx
      exact ⟨g, gap, hblank, by simp, .lone hg, by simp⟩
    | cons next rest =>
      obtain ⟨op₁, groups', op₂, hkeyword, hrest, hsame, hx⟩ := exists_of_joinedGroups?_cons h
      obtain ⟨rfl, rfl⟩ := Prod.mk.inj hx
      obtain rfl : op₁ = op := by simpa using hop
      obtain ⟨u, b, hb, htext, hsequence, -⟩ :=
        ih (fun cut hcut => hcuts cut (List.mem_cons_of_mem _ hcut)) hrest hsame
      refine ⟨g ++ gap ++ u, b, hb, ?_, .more hg (isGap_iff.2 hkeyword) hsequence, ?_⟩
      · rw [List.flatMap_cons, htext]
        simp
      · have hne : groups' ≠ [] := by
          rintro rfl
          cases eq_map_of_joinedGroups? hrest
        simp [hne]

/-- The scan finds exactly the sequences of the grammar. -/
theorem groupsOf?_eq_some_iff {t : Text} {groups : List Text} {op? : Option Connective} :
    groupsOf? t = some (groups, op?) ↔ ∃ op, Sequence op groups (Text.trim t) ∧
      op? = if groups.length = 1 then none else some op := by
  constructor
  · intro h
    obtain ⟨o, ho, hgap, hjoined⟩ := exists_outline_of_groupsOf? h
    have hbracketed : ∀ cut ∈ o.groups, IsBracketed cut.1 := by
      intro cut hcut
      have hmem : cut.1 ∈ groups := by
        rw [eq_map_of_joinedGroups? hjoined]
        exact List.mem_map_of_mem hcut
      obtain ⟨s, hs, hcut⟩ := exists_of_mem_groupsOf? (isNested_of_groupsOf? h) h cut.1 hmem
      exact ⟨s, Text.balanced_iff.2 hs, hcut⟩
    have hsame : op?.all (· == op?.getD .and) = true := by cases op? <;> simp
    obtain ⟨u, b, hb, htext, hsequence, hop⟩ :=
      exists_sequence_of_joinedGroups? hbracketed hjoined hsame
    refine ⟨_, ?_, hop⟩
    have hwhole : o.gap ++ (u ++ b) = t := by
      rw [← Outline.text_of_ofText? ho, Outline.text, Outline.openRest_of_ofText?_zero ho, htext]
      rfl
    rw [← hwhole, Text.trim_append_of_blank_left hgap, Text.trim_append_of_blank_right hb,
      hsequence.trim_eq]
    exact hsequence
  · rintro ⟨op, hsequence, rfl⟩
    obtain ⟨a, b, ha, hb, ht⟩ := Text.exists_trim t
    obtain ⟨cuts, hscan, hjoined⟩ := hsequence.exists_outline hb
    have hstart := Outline.ofText?_zero_append (Text.unbracketed_of_blank ha) (Text.trim t ++ b)
    rw [hscan, ← List.append_assoc, ← ht] at hstart
    have hblank : a.all isBlank = true := ha
    simp [groupsOf?, hstart, Outline.widenBy, hblank, hjoined]

theorem groupsOf?_eq_none_iff {t : Text} :
    groupsOf? t = none ↔ ∀ op groups, ¬ Sequence op groups (Text.trim t) := by
  rw [Option.eq_none_iff_forall_ne_some]
  constructor
  · intro h op groups hsequence
    exact h _ (groupsOf?_eq_some_iff.2 ⟨op, hsequence, rfl⟩)
  · rintro h ⟨groups, op?⟩ hgroups
    obtain ⟨op, hsequence, -⟩ := groupsOf?_eq_some_iff.1 hgroups
    exact h op groups hsequence

theorem groupsOf?_eq_run_iff {t : Text} {groups : List Text} {op : Connective} :
    groupsOf? t = some (groups, some op) ↔
      Sequence op groups (Text.trim t) ∧ 2 ≤ groups.length := by
  constructor
  · intro h
    have hmany := two_le_length_of_groupsOf? h
    obtain ⟨op', hsequence, hop⟩ := groupsOf?_eq_some_iff.1 h
    rw [if_neg (by omega), Option.some.injEq] at hop
    rw [hop]
    exact ⟨hsequence, hmany⟩
  · rintro ⟨hsequence, hmany⟩
    exact groupsOf?_eq_some_iff.2 ⟨op, hsequence, (if_neg (by omega)).symm⟩

theorem exists_bracketed_of_groupsOf? {t : Text} {groups : List Text}
    (h : groupsOf? t = some (groups, none)) :
    ∃ s, Text.Balanced s ∧ Text.trim t = Text.paren s := by
  obtain ⟨g, rfl⟩ := eq_singleton_of_groupsOf? h
  obtain ⟨op, hsequence, -⟩ := groupsOf?_eq_some_iff.1 h
  rw [hsequence.eq_of_singleton]
  exact hsequence.isBracketed g (List.mem_singleton_self g)

/-- How the grammar divides a text without blanks at its ends. -/
inductive Divides (t : Text) : Split → Prop where
  | undivided : (∀ op groups, ¬ Sequence op groups t) → Divides t .undivided
  | run {op : Connective} {groups : List Text} : Sequence op groups t → 2 ≤ groups.length →
      Divides t (.run op groups)
  | wrapped {s : Text} {op : Connective} {groups : List Text} : Text.Balanced s →
      t = Text.paren s → Sequence op groups (Text.trim s) → 2 ≤ groups.length →
      Divides t (.wrapped op groups)
  /-- The inside of a lone group is no sequence, or one of a single group again. -/
  | single {s : Text} : Text.Balanced s → t = Text.paren s →
      (∀ op groups, Sequence op groups (Text.trim s) → groups.length < 2) →
      Divides t (.single t)

theorem ofText_trim (t : Text) : ofText (Text.trim t) = ofText t := by
  rw [ofText, ofText, Text.trim_trim]

theorem divides_paren {s : Text} (hs : Text.Balanced s) :
    Divides (Text.paren s) (ofText (Text.paren s)) := by
  rw [ofText_paren hs.isNested]
  split
  · next groups op hgroups =>
    obtain ⟨hsequence, hmany⟩ := groupsOf?_eq_run_iff.1 hgroups
    exact .wrapped hs rfl hsequence hmany
  · next hgroups =>
    refine .single hs rfl ?_
    intro op groups hsequence
    by_contra hmany
    exact hgroups groups op (groupsOf?_eq_run_iff.2 ⟨hsequence, by omega⟩)

theorem divides_ofText (t : Text) : Divides (Text.trim t) (ofText t) := by
  rcases hgroups : groupsOf? (Text.trim t) with - | ⟨groups, - | op⟩
  · have hnone := groupsOf?_eq_none_iff.1 hgroups
    rw [Text.trim_trim] at hnone
    rw [ofText, hgroups]
    exact .undivided hnone
  · obtain ⟨s, hs, ht⟩ := exists_bracketed_of_groupsOf? hgroups
    rw [Text.trim_trim] at ht
    rw [← ofText_trim, ht]
    exact divides_paren hs
  · obtain ⟨hsequence, hmany⟩ := groupsOf?_eq_run_iff.1 hgroups
    rw [Text.trim_trim] at hsequence
    rw [ofText, hgroups]
    exact .run hsequence hmany

theorem Divides.ofText_eq {t : Text} {split : Split} (h : Divides (Text.trim t) split) :
    ofText t = split := by
  rw [← ofText_trim]
  cases h with
  | undivided hnone =>
    have hgroups : groupsOf? (Text.trim t) = none := by
      rw [groupsOf?_eq_none_iff, Text.trim_trim]
      exact hnone
    rw [ofText, Text.trim_trim, hgroups]
  | run hsequence hmany =>
    rw [← Text.trim_trim] at hsequence
    rw [ofText, Text.trim_trim, groupsOf?_eq_run_iff.2 ⟨hsequence, hmany⟩]
  | wrapped hs ht hsequence hmany =>
    rw [ht, ofText_paren hs.isNested, groupsOf?_eq_run_iff.2 ⟨hsequence, hmany⟩]
  | single hs ht hfew =>
    rw [ht, ofText_paren hs.isNested]
    split
    · next groups op hgroups =>
      obtain ⟨hsequence, hmany⟩ := groupsOf?_eq_run_iff.1 hgroups
      have hfew := hfew op groups hsequence
      omega
    · rfl

theorem ofText_eq_iff {t : Text} {split : Split} :
    ofText t = split ↔ Divides (Text.trim t) split := by
  constructor
  · rintro rfl
    exact divides_ofText t
  · exact Divides.ofText_eq

/-- The parts of a divided text are a sequence, which is the whole text or, up to blanks, what is
inside of its outer parentheses. -/
theorem exists_sequence_parts {t : Text} (h : ofText t ≠ .undivided) :
    ∃ op before middle after, Text.trim t = before ++ middle ++ after ∧
      Sequence op ((ofText t).parts t) middle ∧ (ofText t).joiner?.all (· == op) = true ∧
      (before = [] ∧ after = [] ∨ (∃ groups, ofText t = .wrapped op groups) ∧
        ∃ a b, Text.blank a = true ∧ Text.blank b = true ∧
          before = '(' :: a ∧ after = b ++ [')']) := by
  cases hsplit : ofText t with
  | undivided => exact absurd hsplit h
  | single g =>
    cases ofText_eq_iff.1 hsplit with
    | single hs ht =>
      exact ⟨.and, [], _, [], by simp, .lone ⟨_, hs, ht⟩, rfl, .inl ⟨rfl, rfl⟩⟩
  | run op groups =>
    cases ofText_eq_iff.1 hsplit with
    | run hsequence =>
      exact ⟨op, [], _, [], by simp, hsequence, by simp [joiner?], .inl ⟨rfl, rfl⟩⟩
  | wrapped op groups =>
    cases ofText_eq_iff.1 hsplit with
    | @wrapped s _ _ _ ht hsequence =>
      obtain ⟨a, b, ha, hb, hinside⟩ := Text.exists_trim s
      refine ⟨op, '(' :: a, Text.trim s, b ++ [')'], ?_, hsequence, by simp [joiner?],
        .inr ⟨⟨groups, rfl⟩, a, b, ha, hb, rfl, rfl⟩⟩
      rw [ht]
      conv => lhs; rw [hinside]
      simp [Text.paren]

theorem isSingleGroup_of_mem_parts {t : Text} (h : ofText t ≠ .undivided) :
    ∀ p ∈ (ofText t).parts t, isSingleGroup p = true := by
  obtain ⟨op, before, middle, after, -, hsequence, -, -⟩ := exists_sequence_parts h
  intro p hp
  exact Text.isBracketed_iff.1 (hsequence.isBracketed p hp)

theorem isSingleGroup_iff_ofText {t : Text} :
    isSingleGroup t = true ↔ Text.trim t = t ∧ ofText t ≠ .undivided ∧
      ((∃ op groups, ofText t = .wrapped op groups) ∨ (ofText t).parts t = [t]) := by
  constructor
  · intro h
    obtain ⟨s, hs, rfl⟩ := Text.isBracketed_iff.2 h
    rw [ofText_paren hs.isNested]
    refine ⟨Text.trim_paren s, ?_⟩
    split
    · next groups op _ => exact ⟨nofun, .inl ⟨op, groups, rfl⟩⟩
    · exact ⟨nofun, .inr rfl⟩
  · rintro ⟨htrim, hdivided, hsplit⟩
    cases hofText : ofText t with
    | undivided => exact absurd hofText hdivided
    | single g =>
      cases ofText_eq_iff.1 hofText with
      | single hs ht =>
        rw [htrim] at ht
        exact Text.isBracketed_iff.1 ⟨_, hs, ht⟩
    | wrapped op groups =>
      cases ofText_eq_iff.1 hofText with
      | wrapped hs ht =>
        rw [htrim] at ht
        exact Text.isBracketed_iff.1 ⟨_, hs, ht⟩
    | run op groups =>
      rw [hofText] at hsplit
      rcases hsplit with ⟨_, _, hwrapped⟩ | hparts
      · cases hwrapped
      · -- A run has more than one part.
        obtain rfl : groups = [t] := hparts
        cases ofText_eq_iff.1 hofText with
        | run _ hmany => exact absurd hmany (by simp)

/-- A text divides exactly if it is, blanks at its ends apart, a sequence of groups, and then it
divides as the grammar says: a run into its groups, a lone group into the groups inside of it where
these are a run. Each part is a single group; outside of the parts there is nothing but blanks,
keywords and the parentheses that were looked into. A text is a single group itself exactly if it
has no blanks at its ends and is looked into or its own only part. -/
theorem ofText_reads_grammar (t : Text) :
    (∀ split, ofText t = split ↔ Divides (Text.trim t) split) ∧
    (ofText t ≠ .undivided ↔ ∃ op groups, Sequence op groups (Text.trim t)) ∧
    (ofText t ≠ .undivided →
      (∀ p ∈ (ofText t).parts t, isSingleGroup p = true) ∧
      ∃ op before middle after, Text.trim t = before ++ middle ++ after ∧
        Sequence op ((ofText t).parts t) middle ∧ (ofText t).joiner?.all (· == op) = true ∧
        (before = [] ∧ after = [] ∨ (∃ groups, ofText t = .wrapped op groups) ∧
          ∃ a b, Text.blank a = true ∧ Text.blank b = true ∧
            before = '(' :: a ∧ after = b ++ [')'])) ∧
    (isSingleGroup t = true ↔ Text.trim t = t ∧ ofText t ≠ .undivided ∧
      ((∃ op groups, ofText t = .wrapped op groups) ∨ (ofText t).parts t = [t])) := by
  refine ⟨fun split => ofText_eq_iff, ?_, ?_, isSingleGroup_iff_ofText⟩
  · rw [ne_eq, ofText_eq_iff]
    constructor
    · intro h
      by_contra hnone
      push Not at hnone
      exact h (.undivided hnone)
    · rintro ⟨op, groups, hsequence⟩ h
      cases h with
      | undivided hnone => exact hnone op groups hsequence
  · intro h
    exact ⟨isSingleGroup_of_mem_parts h, exists_sequence_parts h⟩

example : ofText "\t(a) anD\u3000(b(c))AND(d) " = .run .and ["(a)", "(b(c))", "(d)"] := by decide

end Split
end MapQuery
