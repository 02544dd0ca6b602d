import MapQuery.Proofs.Junction.Nesting

/-!
# Shielded texts

Before private characters are restored, every parenthesis of a predicate text belongs to its
structure. So a scan finds the groups that the restored text is read with.
-/

set_option autoImplicit false

namespace MapQuery

open Quotation (quote restore shield doubled shieldedOpen shieldedClose)

/-- Whether a character has no part in the structure of predicate texts. -/
def isPlain (c : Char) : Bool := !isMark c && c != shieldedOpen && c != shieldedClose

/-- Whether a text has no part in the structure of predicate texts. -/
def Text.Plain (t : Text) : Prop := ∀ c ∈ t, isPlain c = true

theorem isPlain_iff {c : Char} :
    isPlain c = true ↔ isMark c = false ∧ c ≠ shieldedOpen ∧ c ≠ shieldedClose := by
  simp [isPlain, and_assoc]

theorem Text.Plain.isMark_eq_false {t : Text} (h : t.Plain) : ∀ c ∈ t, isMark c = false :=
  fun c hc => (isPlain_iff.1 (h c hc)).1

theorem unbracketed_of_isPlain {c : Char} (h : isPlain c = true) : Text.Unbracketed [c] :=
  Text.unbracketed_of_isMark fun _ hd => List.mem_singleton.1 hd ▸ (isPlain_iff.1 h).1

theorem Text.Plain.not_mem {t : Text} (h : t.Plain) {c : Char} (hc : isPlain c = false) :
    c ∉ t := by
  intro hmem
  rw [h c hmem] at hc
  cases hc

theorem Text.Plain.shown {t : Text} (h : t.Plain) (r : Rendering) : r.text t = t :=
  r.text_eq_self (fun ho => (isPlain_iff.1 (h _ ho)).2.1 rfl)
    fun hc => (isPlain_iff.1 (h _ hc)).2.2 rfl

/-- A text put together of plain characters, quotations and such texts in parentheses. -/
inductive Segment : Text → Prop where
  | nil : Segment []
  | plain {c : Char} {t : Text} : isPlain c = true → Segment t → Segment (c :: t)
  | quoted (s : Text) {t : Text} : Segment t → Segment (quote s ++ t)
  | nested {s t : Text} : Segment s → Segment t → Segment (Text.paren s ++ t)

namespace Segment

theorem append {s t : Text} (hs : Segment s) (ht : Segment t) : Segment (s ++ t) := by
  induction hs with
  | nil => exact ht
  | plain hc _ ih => exact .plain hc ih
  | quoted s _ ih =>
    rw [List.append_assoc]
    exact .quoted s ih
  | nested hs _ _ ih =>
    rw [List.append_assoc]
    exact .nested hs ih

theorem paren {s : Text} (hs : Segment s) : Segment (Text.paren s) := by
  simpa using nested hs nil

theorem quote (s : Text) : Segment (quote s) := by
  simpa using quoted s nil

theorem of_plain {t : Text} (h : t.Plain) : Segment t := by
  induction t with
  | nil => exact nil
  | cons c t ih => exact plain (h c (by simp)) (ih fun d hd => h d (List.mem_cons_of_mem c hd))

theorem joined {separator : Text} (hseparator : Segment separator) {texts : List Text}
    (h : ∀ t ∈ texts, Segment t) : Segment (Text.joined separator texts) :=
  Text.joined_induction nil (fun _ _ => append) hseparator h

end Segment

theorem Quotation.unbracketed_quote (s : Text) : (quote s).Unbracketed := by
  have hchar : ∀ c, shieldChar c ≠ '(' ∧ shieldChar c ≠ ')' := by
    intro c
    unfold shieldChar
    split
    · decide
    · split
      · decide
      · next hopen hclose => exact ⟨hopen, hclose⟩
  intro c hc
  rcases List.mem_cons.1 hc with rfl | hc
  · decide
  · rcases List.mem_append.1 hc with hc | hc
    · obtain ⟨d, -, rfl⟩ := List.mem_map.1 hc
      exact hchar d
    · obtain rfl := List.mem_singleton.1 hc
      decide

theorem Segment.isNested {s : Text} (h : Segment s) : s.IsNested := by
  induction h with
  | nil => rfl
  | plain hc _ ih => exact (Text.IsNested.of_unbracketed (unbracketed_of_isPlain hc)).append ih
  | quoted s _ ih =>
    exact (Text.IsNested.of_unbracketed (Quotation.unbracketed_quote s)).append ih
  | nested _ _ ihs ihu => exact ihs.paren.append ihu

theorem Quotation.restoreChar_ne_quote {c : Char} (h : c ≠ '\'') : restoreChar c ≠ '\'' := by
  unfold restoreChar
  split
  · decide
  · split
    · decide
    · exact h

theorem Quotation.shieldChar_ne_quote {c : Char} (h : c ≠ '\'') : shieldChar c ≠ '\'' := by
  unfold shieldChar
  split
  · decide
  · split
    · decide
    · exact h

namespace Levels

/-- The levels a text of the innermost one earlier. -/
def widenBy (t : Text) (ls : Levels) : Levels := (ls.1.widenBy t, ls.2)

theorem widen_eq (c : Char) : widen c = widenBy [c] := rfl

@[simp] theorem widenBy_comp (s t : Text) : widenBy s ∘ widenBy t = widenBy (s ++ t) := by
  funext ls
  simp [widenBy, Level.widenBy]

theorem ofText?_true_quote (t : Text) :
    ofText? true ('\'' :: t) = (ofText? false t).map (widenBy ['\'']) := rfl

theorem ofText?_false_quote (t : Text) :
    ofText? false ('\'' :: t) = (ofText? true t).map (widenBy ['\'']) := rfl

theorem ofText?_true_of_ne {c : Char} (h : c ≠ '\'') (t : Text) :
    ofText? true (c :: t) = (ofText? true t).map (widenBy [c]) := by
  have hstay : (c != '\'') = true := bne_iff_ne.2 h
  rw [ofText?, hstay, widen_eq]

theorem ofText?_closing (s t : Text) :
    ofText? true (restore (shield (doubled s)) ++ '\'' :: t) =
      (ofText? false t).map (widenBy (restore (shield (doubled s)) ++ ['\''])) := by
  induction s with
  | nil => rfl
  | cons c s ih =>
    by_cases hc : c = '\''
    · subst hc
      have htwice : restore (shield (doubled ('\'' :: s))) =
          '\'' :: '\'' :: restore (shield (doubled s)) := rfl
      simp only [htwice, List.cons_append, ofText?_true_quote, ofText?_false_quote, ih,
        Option.map_map, widenBy_comp]
      rfl
    · have hne := Quotation.restoreChar_ne_quote (Quotation.shieldChar_ne_quote hc)
      have honce : restore (shield (doubled (c :: s))) =
          Quotation.restoreChar (Quotation.shieldChar c) :: restore (shield (doubled s)) := by
        simp [doubled, hc, restore, shield]
      simp only [honce, List.cons_append, ofText?_true_of_ne hne, ih, Option.map_map, widenBy_comp]
      rfl

theorem ofText?_quote (s t : Text) :
    ofText? false (restore (quote s) ++ t) =
      (ofText? false t).map (widenBy (restore (quote s))) := by
  have hquote : Quotation.restoreChar '\'' = '\'' := by decide
  have hrestore : restore (quote s) = '\'' :: (restore (shield (doubled s)) ++ ['\'']) := by
    simp [quote, restore, hquote]
  rw [hrestore]
  simp only [List.cons_append, List.append_assoc, List.nil_append, ofText?_false_quote,
    ofText?_closing, Option.map_map, widenBy_comp]

end Levels

theorem Level.ofText?_quote {t : Text} {l : Level} (s : Text) (h : ofText? t = some l) :
    ofText? (restore (quote s) ++ t) = some (l.widenBy (restore (quote s))) := by
  rw [ofText?_eq_some_iff] at h ⊢
  rw [Levels.ofText?_quote, h]
  rfl

namespace Segment

/-- How a shielded text is scanned is how it is read. -/
structure ScannedAs (o : Outline) (l : Level) : Prop where
  gap : l.gap = restore o.gap
  groups : Level.cuts l.groups = o.groups.map fun g => (restore g.1, restore g.2)
  nested : ∀ g ∈ o.groups, ∃ s, Segment s ∧ g.1 = Text.paren s

theorem exists_scannedAs {s : Text} (h : Segment s) :
    ∃ o l, Outline.ofText? 0 s = some o ∧ Level.ofText? (restore s) = some l ∧ ScannedAs o l := by
  induction h with
  | nil => exact ⟨_, _, rfl, rfl, rfl, rfl, by simp⟩
  | @plain c t hc _ ih =>
    obtain ⟨o, l, ho, hl, hgap, hgroups, hnested⟩ := ih
    obtain ⟨hmark, hopen, hclose⟩ := isPlain_iff.1 hc
    have hrestore : Quotation.restoreChar c = c := Rendering.restored.fixed c hopen hclose
    have hne : Text.Unbracketed [c] := unbracketed_of_isPlain hc
    have hscan := Outline.ofText?_zero_append hne t
    have hread := Level.ofText?_unmarked (by simpa using hmark) (restore t) (a := [c])
    rw [ho] at hscan
    rw [hl] at hread
    refine ⟨_, l.widenBy [c], hscan, ?_, ?_, hgroups, hnested⟩
    · simpa [restore, hrestore] using hread
    · simp [Level.widenBy, Outline.widenBy, hgap, restore, hrestore]
  | @quoted s t _ ih =>
    obtain ⟨o, l, ho, hl, hgap, hgroups, hnested⟩ := ih
    have hscan := Outline.ofText?_zero_append (Quotation.unbracketed_quote s) t
    have hread := Level.ofText?_quote s hl
    rw [ho] at hscan
    rw [← Quotation.restore_append] at hread
    refine ⟨_, _, hscan, hread, ?_, hgroups, hnested⟩
    simp [Level.widenBy, Outline.widenBy, hgap]
  | @nested s t hs _ ihs iht =>
    obtain ⟨-, k, -, hk, -⟩ := ihs
    obtain ⟨o, l, ho, hl, hgap, hgroups, hnested⟩ := iht
    have hscan := Outline.ofText?_paren_append hs.isNested t
    rw [ho] at hscan
    have hread := Level.ofText?_paren_append hk hl
    have hparen : restore (Text.paren s) = Text.paren (restore s) := Rendering.restored.text_paren s
    have htext := Level.text_of_ofText? hk
    refine ⟨_, l.before k.group, hscan, ?_, rfl, ?_, ?_⟩
    · rw [Quotation.restore_append, hparen]
      exact hread
    · simp [Level.before, Level.group, hgap, hgroups, hparen, htext]
    · intro g hg
      rcases List.mem_cons.1 hg with rfl | hg
      · exact ⟨s, hs, rfl⟩
      · exact hnested g hg

end Segment

theorem Connective.restore_of_ofKeyword? {t : Text} {op : Connective}
    (h : ofKeyword? (Text.trim t) = some op) : ofKeyword? (Text.trim (restore t)) = some op := by
  have hletters := mem_letters_of_ofKeyword? h
  have ho : shieldedOpen ∉ Text.trim t := fun hmem => absurd (hletters _ hmem) (by decide)
  have hc : shieldedClose ∉ Text.trim t := fun hmem => absurd (hletters _ hmem) (by decide)
  have hsame : Text.trim (restore t) = Text.trim t := by
    rw [← Rendering.restored.text_eq_self ho hc]
    exact (Rendering.restored.text_trim t).symm
  rw [hsame, h]

namespace Split

theorem joinedGroups?_restore {cuts : List (Text × Text)} {groups : List Text}
    {op : Option Connective} (h : joinedGroups? cuts = some (groups, op)) :
    joinedGroups? (cuts.map fun g => (restore g.1, restore g.2)) =
      some (groups.map restore, op) := by
  induction cuts generalizing groups op with
  | nil => simp [joinedGroups?] at h
  | cons g rest ih =>
    cases rest with
    | nil =>
      obtain ⟨hblank, hx⟩ := blank_of_joinedGroups?_singleton h
      obtain ⟨rfl, rfl⟩ := Prod.mk.inj hx
      have hshown : (restore g.2).all isBlank = true :=
        (Rendering.restored.blank_text g.2).trans hblank
      simp [joinedGroups?, hshown]
    | cons next rest =>
      obtain ⟨op₁, groups', op₂, hkeyword, hrest, hsame, hx⟩ := exists_of_joinedGroups?_cons h
      obtain ⟨rfl, rfl⟩ := Prod.mk.inj hx
      have hshown := ih hrest
      simp only [List.map_cons] at hshown ⊢
      simp [joinedGroups?, Connective.restore_of_ofKeyword? hkeyword, hshown, hsame]

end Split

namespace Segment

theorem exists_of_groupsOf? {s : Text} (h : Segment s) {groups : List Text}
    {op : Option Connective} (hgroups : Split.groupsOf? s = some (groups, op)) :
    ∀ g ∈ groups, ∃ t, Segment t ∧ g = Text.paren t := by
  obtain ⟨o, l, ho, -, hseen⟩ := h.exists_scannedAs
  obtain ⟨o', ho', -, hjoined⟩ := Split.exists_outline_of_groupsOf? hgroups
  obtain rfl := Option.some.inj (ho.symm.trans ho')
  rw [Split.eq_map_of_joinedGroups? hjoined]
  intro g hg
  obtain ⟨cut, hcut, rfl⟩ := List.mem_map.1 hg
  exact hseen.nested cut hcut

theorem heeds {s : Text} (h : Segment s) : Rendering.restored.Heeds s := by
  obtain ⟨o, l, ho, hl, hseen⟩ := h.exists_scannedAs
  intro x hx
  obtain ⟨o', ho', hgap, hjoined⟩ := Split.exists_outline_of_groupsOf? hx
  obtain rfl := Option.some.inj (ho.symm.trans ho')
  have hblank : Text.blank l.gap = true := by
    rw [hseen.gap]
    exact (Rendering.restored.blank_text o.gap).trans hgap
  rw [Rendering.text_restored, hl, Option.bind_some, Level.joined?, if_pos hblank, hseen.groups]
  exact Split.joinedGroups?_restore hjoined

/-- Scans of a shielded text in parentheses find the groups that it is shown with. -/
theorem heedsThroughout_paren {s : Text} (h : Segment s) :
    Rendering.restored.HeedsThroughout (Text.paren s) := by
  rw [Rendering.HeedsThroughout, Text.trim_paren]
  refine ⟨h.paren.heeds, ?_⟩
  intro x hx _
  rw [Option.mem_def, Split.groupsOf?_paren h.isNested] at hx
  obtain rfl := Option.some.inj hx
  rw [List.headD_cons, Split.inside_paren]
  exact h.heeds

theorem exists_of_mem_members {op : Connective} {s : Text} (h : Segment s) :
    ∀ m ∈ Junction.members op (Text.paren s), ∃ t, Segment t ∧ m = Text.paren t := by
  have hself : ∀ m ∈ [Text.paren s], ∃ t, Segment t ∧ m = Text.paren t := fun m hm =>
    ⟨s, h, List.mem_singleton.1 hm⟩
  rw [Junction.members_paren op h.isNested]
  split
  · next groups op' hgroups =>
    split
    · exact h.exists_of_groupsOf? hgroups
    · exact hself
  · exact hself

end Segment
end MapQuery
