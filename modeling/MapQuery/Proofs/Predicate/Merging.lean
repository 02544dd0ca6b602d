import Mathlib.Data.List.Forall2
import MapQuery.Junction.Merge
import MapQuery.Proofs.Predicate.Meaning
import MapQuery.Text.Quotation

/-!
# What merged texts mean

A merge scans its texts by their parentheses alone. As long as the groups that a scan finds are
groups of the text as it is shown, the merge means the conjunction or disjunction of its texts.
-/

set_option autoImplicit false

namespace MapQuery

/-- Whether a text holds no parentheses. -/
def Text.Unbracketed (t : Text) : Prop := ∀ c ∈ t, c ≠ '(' ∧ c ≠ ')'

theorem Text.unbracketed_cons {c : Char} {t : Text} :
    Text.Unbracketed (c :: t) ↔ (c ≠ '(' ∧ c ≠ ')') ∧ t.Unbracketed := by
  simp [Unbracketed]

/-- A way to show a text that may hold private characters. -/
structure Rendering where
  char : Char → Char
  blank : ∀ c, isBlank (char c) = isBlank c
  fixed : ∀ c, c ≠ Quotation.shieldedOpen → c ≠ Quotation.shieldedClose → char c = c

namespace Rendering

def asIs : Rendering := ⟨id, fun _ => rfl, fun _ _ _ => rfl⟩

def restored : Rendering where
  char := Quotation.restoreChar
  blank c := by
    unfold Quotation.restoreChar
    split
    · next h => rw [h]; decide
    · split
      · next h => rw [h]; decide
      · rfl
  fixed c ho hc := by simp [Quotation.restoreChar, ho, hc]

variable (r : Rendering)

def text (t : Text) : Text := t.map r.char

@[simp] theorem text_append (s t : Text) : r.text (s ++ t) = r.text s ++ r.text t :=
  List.map_append

@[simp] theorem text_paren (t : Text) : r.text (Text.paren t) = Text.paren (r.text t) := by
  have ho : r.char '(' = '(' := r.fixed _ (by decide) (by decide)
  have hc : r.char ')' = ')' := r.fixed _ (by decide) (by decide)
  simp [text, Text.paren, ho, hc]

theorem text_inside (t : Text) : r.text (Split.inside t) = Split.inside (r.text t) := by
  simp [text, Split.inside, List.map_tail, List.map_dropLast]

@[simp] theorem blank_text (t : Text) : Text.blank (r.text t) = Text.blank t := by
  simp [Text.blank, text, List.all_map, Function.comp_def, r.blank]

@[simp] theorem text_trim (t : Text) : r.text (Text.trim t) = Text.trim (r.text t) := by
  have hcomp : isBlank ∘ r.char = isBlank := funext r.blank
  simp [text, Text.trim, Text.trimEnd, Text.trimStart, List.dropWhile_map, ← List.map_reverse,
    hcomp]

@[simp] theorem text_asIs (t : Text) : asIs.text t = t := List.map_id t

@[simp] theorem text_restored (t : Text) : restored.text t = Quotation.restore t := rfl

theorem text_eq_self {t : Text} (ho : Quotation.shieldedOpen ∉ t)
    (hc : Quotation.shieldedClose ∉ t) : r.text t = t := by
  induction t with
  | nil => rfl
  | cons c t ih =>
    simp only [List.mem_cons, not_or] at ho hc
    have hrest := ih ho.2 hc.2
    simp only [text, List.map_cons] at hrest ⊢
    rw [hrest, r.fixed c (Ne.symm ho.1) (Ne.symm hc.1)]

/-- Whether a scan that divides a text into groups takes those that the text is shown with. -/
def Heeds (t : Text) : Prop :=
  ∀ x ∈ Split.groupsOf? t,
    (Level.ofText? (r.text t)).bind Level.joined? = some (x.1.map r.text, x.2)

/-- Whether the scans of a merge heed how a text is shown, inside a lone group too. -/
def HeedsThroughout (t : Text) : Prop :=
  r.Heeds (Text.trim t) ∧
    ∀ x ∈ Split.groupsOf? (Text.trim t), x.2 = none → r.Heeds (Split.inside (x.1.headD []))

instance (t : Text) : Decidable (r.Heeds t) :=
  inferInstanceAs (Decidable (∀ x ∈ Split.groupsOf? t,
    (Level.ofText? (r.text t)).bind Level.joined? = some (x.1.map r.text, x.2)))

instance (t : Text) : Decidable (r.HeedsThroughout t) :=
  inferInstanceAs (Decidable (r.Heeds (Text.trim t) ∧ ∀ x ∈ Split.groupsOf? (Text.trim t),
    x.2 = none → r.Heeds (Split.inside (x.1.headD []))))

theorem exists_level_of_heeds {r : Rendering} {t : Text} {groups : List Text}
    {op : Option Connective} (h : r.Heeds t) (hgroups : Split.groupsOf? t = some (groups, op)) :
    ∃ l, Level.ofText? (r.text t) = some l ∧ l.joined? = some (groups.map r.text, op) :=
  Option.bind_eq_some_iff.1 (h (groups, op) hgroups)

end Rendering

variable {r : Rendering} {v : Text → Bool} {op : Connective}

/-- Whether a text is shown as one group of the given truth. -/
def IsGroup (r : Rendering) (v : Text → Bool) (t : Text) (b : Bool) : Prop :=
  ∃ k, Level.ofText? k.text = some k ∧ r.text t = k.group.text ∧ k.meaning.holds v = b

/-- What a text has to say in a merge: nothing if it is blank, else its truth. -/
inductive Contributes (r : Rendering) (v : Text → Bool) : Text → Option Bool → Prop where
  | blank {t : Text} : Text.blank t = true → Contributes r v t none
  | reading {t : Text} {k : Level} : Text.blank t = false → Level.ofText? (r.text t) = some k →
      r.HeedsThroughout t → Contributes r v t (some (k.meaning.holds v))

theorem Split.eq_singleton_of_joinedGroups? {cuts : List (Text × Text)} {groups : List Text}
    (h : joinedGroups? cuts = some (groups, none)) :
    ∃ g gap, cuts = [(g, gap)] ∧ groups = [g] ∧ Text.blank gap = true := by
  rcases cuts with - | ⟨⟨g, gap⟩, - | ⟨next, rest⟩⟩
  · simp [joinedGroups?] at h
  · obtain ⟨hgap, hx⟩ := blank_of_joinedGroups?_singleton h
    exact ⟨g, gap, rfl, (Prod.mk.inj hx).1, hgap⟩
  · obtain ⟨op, gs, op', -, -, -, hx⟩ := exists_of_joinedGroups?_cons h
    simp at hx

theorem Split.eq_singleton_of_groupsOf? {t : Text} {groups : List Text}
    (h : groupsOf? t = some (groups, none)) : ∃ g, groups = [g] := by
  obtain ⟨o, -, -, hjoined⟩ := exists_outline_of_groupsOf? h
  obtain ⟨g, -, -, hgroups, -⟩ := eq_singleton_of_joinedGroups? hjoined
  exact ⟨g, hgroups⟩

theorem isGroup_paren {t : Text} {k : Level} (hk : Level.ofText? (r.text t) = some k) :
    IsGroup r v (Text.paren t) (k.meaning.holds v) := by
  have htext := Level.text_of_ofText? hk
  refine ⟨k, by rw [htext, hk], ?_, rfl⟩
  simp [Level.group, htext]

/-- Whether groups are shown as groups and an operator makes a truth of theirs. -/
def AreGroups (r : Rendering) (v : Text → Bool) (op : Connective) (groups : List Text) (b : Bool) :
    Prop :=
  ∃ bs, List.Forall₂ (IsGroup r v) groups bs ∧ bs ≠ [] ∧ op.holds bs = b

theorem isGroups_of_sound {gs : List (Group × Text)}
    (hsound : ∀ g ∈ gs, ∃ k, Level.ofText? k.text = some k ∧ g.1 = k.group) {groups : List Text}
    (htexts : groups.map r.text = gs.map (·.1.text)) :
    List.Forall₂ (IsGroup r v) groups (gs.map fun g => g.1.meaning.holds v) := by
  induction gs generalizing groups with
  | nil =>
    obtain rfl : groups = [] := by simpa using htexts
    exact .nil
  | cons g gs ih =>
    cases groups with
    | nil => simp at htexts
    | cons t groups =>
      obtain ⟨htext, hrest⟩ := List.cons.inj htexts
      obtain ⟨k, hk, hgk⟩ := hsound g (by simp)
      refine .cons ⟨k, hk, htext.trans (congrArg Group.text hgk), ?_⟩ ?_
      · simp [hgk, Level.group]
      · exact ih (fun g' hg' => hsound g' (List.mem_cons_of_mem _ hg')) hrest

theorem isGroups_of_joined? {t : Text} {l : Level} (hl : Level.ofText? t = some l)
    {groups : List Text} {op' : Option Connective}
    (hjoined : l.joined? = some (groups.map r.text, op')) (hop : op'.all (· == op) = true) :
    AreGroups r v op groups (l.meaning.holds v) := by
  obtain ⟨htexts, hne, hholds⟩ := Level.holds_of_joined? hjoined hop v
  exact ⟨_, isGroups_of_sound (Level.sound_of_ofText? hl) htexts, by simpa using hne, hholds.symm⟩

/-- Whether a text is shown as it divides. -/
def Split.Shown (r : Rendering) (t : Text) : Split → Prop
  | .undivided => True
  | .single group => r.text group = r.text t ∧
      ∃ k, Level.ofText? k.text = some k ∧ r.text t = k.group.text
  | .run op groups => ∃ l, Level.ofText? (r.text t) = some l ∧
      l.joined? = some (groups.map r.text, some op)
  | .wrapped op groups => ∃ k, Level.ofText? k.text = some k ∧ r.text t = k.group.text ∧
      k.joined? = some (groups.map r.text, some op)

theorem areGroups_singleton {t : Text} {b : Bool} (h : IsGroup r v t b) :
    AreGroups r v op [t] b :=
  ⟨[b], .cons h .nil, by simp, Connective.holds_singleton op b⟩

/-- A lone group that a trimmed text is shown with is the whole text. -/
theorem exists_of_lone {t g : Text} (ht : Text.trim t = t) {l : Level}
    (hl : Level.ofText? (r.text t) = some l) (hjoined : l.joined? = some ([r.text g], none)) :
    ∃ k, Level.ofText? k.text = some k ∧ r.text g = k.group.text ∧ r.text t = k.group.text := by
  unfold Level.joined? at hjoined
  split at hjoined
  · next hgap =>
    obtain ⟨x, gap, hcuts, htexts, hblank⟩ := Split.eq_singleton_of_joinedGroups? hjoined
    obtain ⟨⟨G, gap'⟩, hgroups, hG⟩ := List.map_eq_singleton_iff.1 hcuts
    obtain ⟨rfl, rfl⟩ : G.text = x ∧ gap' = gap := by simpa using hG
    obtain ⟨k, hk, rfl⟩ := Level.sound_of_ofText? hl (G, gap') (by simp [hgroups])
    refine ⟨k, hk, by simpa using htexts, ?_⟩
    have htext : l.gap ++ (k.group.text ++ gap') = r.text t := by
      simpa [Level.text, hgroups] using Level.text_of_ofText? hl
    have htrim := congrArg Text.trim htext
    rw [Text.trim_append_of_blank_left hgap, Text.trim_append_of_blank_right hblank,
      ← Rendering.text_trim, ht] at htrim
    rw [← htrim]
    exact Text.trim_paren k.text
  · simp at hjoined

theorem meaning_of_group {t : Text} {k l : Level} (hk : Level.ofText? k.text = some k)
    (ht : r.text t = k.group.text) (hl : Level.ofText? (r.text t) = some l) :
    l.meaning = k.meaning := by
  have hread : Level.ofText? (r.text t) = some (Level.empty.before k.group) :=
    (congrArg Level.ofText? ht).trans (Level.ofText?_paren hk)
  obtain rfl := Option.some.inj (hl.symm.trans hread)
  rfl

theorem shown_ofText {t : Text} (ht : Text.trim t = t) (hheeds : r.HeedsThroughout t) :
    (Split.ofText t).Shown r t := by
  obtain ⟨houter, hinner⟩ := hheeds
  rw [ht] at houter hinner
  unfold Split.ofText
  rw [ht]
  split
  · trivial
  · next groups op hgroups => exact Rendering.exists_level_of_heeds houter hgroups
  · next groups hgroups =>
    obtain ⟨l', hl', hjoined⟩ := Rendering.exists_level_of_heeds houter hgroups
    obtain ⟨g, rfl⟩ := Split.eq_singleton_of_groupsOf? hgroups
    obtain ⟨k, hk, hg, htk⟩ := exists_of_lone ht hl' hjoined
    simp only [List.headD_cons]
    split
    · next inner op hinside =>
      have hheeds : r.Heeds (Split.inside g) := hinner _ hgroups rfl
      obtain ⟨k', hk', hjoined'⟩ := Rendering.exists_level_of_heeds hheeds hinside
      have hsame : r.text (Split.inside g) = k.text := by
        rw [Rendering.text_inside, hg]
        simp [Level.group, Split.inside, Text.paren]
      rw [hsame] at hk'
      obtain rfl := Option.some.inj (hk.symm.trans hk')
      exact ⟨k, hk, htk, hjoined'⟩
    · exact ⟨hg.trans htk.symm, k, hk, htk⟩

theorem Junction.members_of_blank {t : Text} (h : Text.blank t = true) : members op t = [] := by
  have hempty : Text.trim t = [] := (Text.trim_eq_nil_iff t).2 h
  simp [members, hempty]

/-- The groups that a text gives to a join are shown as groups and say what the text says. -/
theorem areGroups_members {t : Text} {k : Level} (hblank : Text.blank t = false)
    (hk : Level.ofText? (r.text t) = some k) (hheeds : r.HeedsThroughout t) :
    AreGroups r v op (Junction.members op t) (k.meaning.holds v) := by
  obtain ⟨l, hl, hmeaning⟩ := Level.ofText?_trim hk
  rw [← Rendering.text_trim] at hl
  have hne : (Text.trim t).isEmpty = false := by
    rw [List.isEmpty_eq_false_iff, ne_eq, Text.trim_eq_nil_iff, hblank]
    simp
  have hscans : r.HeedsThroughout (Text.trim t) := by
    simpa [Rendering.HeedsThroughout] using hheeds
  have hshown := shown_ofText (Text.trim_trim t) hscans
  have hwhole : IsGroup r v (Text.paren (Text.trim t)) (l.meaning.holds v) := isGroup_paren hl
  rw [← hmeaning]
  simp only [Junction.members, hne, Bool.false_eq_true, if_false]
  revert hshown
  cases Split.ofText (Text.trim t) with
  | undivided =>
    intro _
    exact areGroups_singleton hwhole
  | single group =>
    rintro ⟨hgroup, k, hk, htext⟩
    exact areGroups_singleton
      ⟨k, hk, hgroup.trans htext, by rw [meaning_of_group hk htext hl]⟩
  | run op' groups =>
    rintro ⟨l', hl', hjoined⟩
    obtain rfl := Option.some.inj (hl.symm.trans hl')
    simp only
    split
    · next hop => exact isGroups_of_joined? hl hjoined (by simp [hop])
    · exact areGroups_singleton hwhole
  | wrapped op' groups =>
    rintro ⟨k, hk, htext, hjoined⟩
    rw [meaning_of_group hk htext hl]
    simp only
    split
    · next hop => exact isGroups_of_joined? hk hjoined (by simp [hop])
    · exact areGroups_singleton ⟨k, hk, htext, rfl⟩

theorem Connective.mem_letters_of_ofKeyword? {t : Text} {op : Connective}
    (h : ofKeyword? t = some op) :
    ∀ c ∈ t, c.toLower ∈ "and".toList ∨ c.toLower ∈ "or".toList := by
  intro c hc
  have hmem : c.toLower ∈ Text.lowerAscii t := List.mem_map_of_mem hc
  unfold ofKeyword? at h
  split at h
  · next hand =>
    rw [eq_of_beq hand] at hmem
    exact .inl hmem
  · split at h
    · next hor =>
      rw [eq_of_beq hor] at hmem
      exact .inr hmem
    · simp at h

def Connective.separator (op : Connective) : Text := " " ++ op.keyword ++ " "

theorem Connective.ofKeyword?_separator (op : Connective) :
    ofKeyword? (Text.trim op.separator) = some op := by
  cases op <;> decide

theorem Connective.isMark_separator (op : Connective) : ∀ c ∈ op.separator, isMark c = false := by
  have hall : op.separator.all (fun c => !isMark c) = true := by cases op <;> rfl
  simpa using hall

theorem Rendering.text_separator (r : Rendering) (op : Connective) :
    r.text op.separator = op.separator := by
  apply r.text_eq_self <;> cases op <;> decide

theorem exists_level_of_joined (op : Connective) {groups : List Text} {bs : List Bool}
    (h : List.Forall₂ (IsGroup r v) groups bs) (hne : groups ≠ []) :
    ∃ l texts op', Level.ofText? (r.text (Text.joined op.separator groups)) = some l ∧
      l.gap = [] ∧ Split.joinedGroups? (Level.cuts l.groups) = some (texts, op') ∧
      op'.all (· == op) = true ∧ (l.groups.map fun g => g.1.meaning.holds v) = bs := by
  induction h with
  | nil => exact absurd rfl hne
  | @cons g b groups bs hg hgroups ih =>
    obtain ⟨k, hk, htext, rfl⟩ := hg
    have hread := Level.ofText?_paren hk
    cases groups with
    | nil =>
      obtain rfl := List.forall₂_nil_left_iff.1 hgroups
      exact ⟨Level.empty.before k.group, [k.group.text], none,
        (congrArg Level.ofText? htext).trans hread, rfl, rfl, rfl, rfl⟩
    | cons next rest =>
      obtain ⟨l, texts, op', hl, hgap, hjoined, hop, hholds⟩ := ih (by simp)
      have hnext := Level.ofText?_unmarked op.isMark_separator
        (r.text (Text.joined op.separator (next :: rest)))
      rw [hl, Option.map_some] at hnext
      refine ⟨(l.widenBy op.separator).before k.group, k.group.text :: texts, some op, ?_, rfl, ?_,
        by simp, ?_⟩
      · simp only [Text.joined, Rendering.text_append, htext, Rendering.text_separator,
          List.append_assoc]
        exact Level.ofText?_paren_append hk hnext
      · obtain ⟨gap, - | ⟨x, xs⟩⟩ := l
        · simp [Split.joinedGroups?] at hjoined
        · obtain rfl : gap = [] := hgap
          simp only [Level.before, Level.widenBy, List.append_nil, List.map_cons,
            Split.joinedGroups?, Connective.ofKeyword?_separator] at hjoined ⊢
          simp [hjoined, hop]
      · rw [← hholds]
        rfl

theorem isGroup_joinMembers {groups : List Text} {b : Bool} (h : AreGroups r v op groups b) :
    IsGroup r v (Junction.joinMembers op groups) b := by
  obtain ⟨bs, hgroups, hne, rfl⟩ := h
  cases hgroups with
  | nil => exact absurd rfl hne
  | @cons g b groups bs hg hgroups =>
    cases hgroups with
    | nil =>
      rw [Connective.holds_singleton]
      exact hg
    | @cons g' b' groups bs hg' hgroups =>
      have hall : List.Forall₂ (IsGroup r v) (g :: g' :: groups) (b :: b' :: bs) :=
        .cons hg (.cons hg' hgroups)
      obtain ⟨l, texts, op', hl, hgap, hjoined, hop, hholds⟩ :=
        exists_level_of_joined op hall (by simp)
      have hrun : l.joined? = some (texts, op') := by simp [Level.joined?, hgap, hjoined]
      rw [← hholds, ← (Level.holds_of_joined? hrun hop v).2.2]
      exact isGroup_paren hl

/-- Whether a text is one group of the given truth, or empty if there is nothing to say. -/
inductive IsFragment (r : Rendering) (v : Text → Bool) : Text → Option Bool → Prop where
  | empty : IsFragment r v [] none
  | group {t : Text} {b : Bool} : IsGroup r v t b → IsFragment r v t (some b)

theorem isFragment_joinMembers {groups : List Text} {os : List (Option Bool)} {bs : List Bool}
    (h : List.Forall₂ (IsGroup r v) groups bs) (hnil : bs = [] ↔ os.filterMap id = [])
    (hholds : op.holds bs = op.holds (os.filterMap id)) :
    IsFragment r v (Junction.joinMembers op groups) (op.holds? os) := by
  unfold Connective.holds?
  split
  · next hos =>
    obtain rfl := hnil.2 hos
    obtain rfl := List.forall₂_nil_right_iff.1 h
    exact .empty
  · next hos =>
    rw [← hholds]
    exact .group (isGroup_joinMembers ⟨bs, h, fun hbs => hos (hnil.1 hbs), rfl⟩)

theorem isGroups_flatMap_members {texts : List Text} {os : List (Option Bool)}
    (h : List.Forall₂ (Contributes r v) texts os) :
    ∃ bs, List.Forall₂ (IsGroup r v) (texts.flatMap (Junction.members op)) bs ∧
      (bs = [] ↔ os.filterMap id = []) ∧ op.holds bs = op.holds (os.filterMap id) := by
  induction h with
  | nil => exact ⟨[], .nil, by simp, rfl⟩
  | @cons t o texts os ht _ ih =>
    obtain ⟨bs, hbs, hnil, hholds⟩ := ih
    cases ht with
    | blank hblank =>
      exact ⟨bs, by simpa [Junction.members_of_blank hblank] using hbs, hnil, hholds⟩
    | @reading k hblank hk hheeds =>
      obtain ⟨cs, hcs, hne, htruth⟩ : AreGroups r v op (Junction.members op t) _ :=
        areGroups_members hblank hk hheeds
      refine ⟨cs ++ bs, List.rel_append hcs hbs, by simp [hne], ?_⟩
      calc op.holds (cs ++ bs)
          = op.holds [op.holds cs, op.holds bs] := op.holds_append cs bs
        _ = op.holds [op.holds [k.meaning.holds v], op.holds (os.filterMap id)] := by
          rw [htruth, hholds, Connective.holds_singleton]
        _ = op.holds (k.meaning.holds v :: os.filterMap id) :=
          (op.holds_append [k.meaning.holds v] (os.filterMap id)).symm

/-- A merge means the conjunction or disjunction of the texts that say something. -/
theorem isFragment_merge {texts : List Text} {os : List (Option Bool)}
    (h : List.Forall₂ (Contributes r v) texts os) :
    IsFragment r v (Junction.merge op texts) (op.holds? os) := by
  obtain ⟨bs, hbs, hnil, hholds⟩ := isGroups_flatMap_members h
  exact isFragment_joinMembers hbs hnil hholds

end MapQuery
