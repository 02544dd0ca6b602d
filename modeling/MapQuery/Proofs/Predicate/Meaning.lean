import MapQuery.Junction.Split
import MapQuery.Proofs.Predicate.Levels

/-!
# What runs of groups mean

Blanks around a text do not change what it means. Groups that one keyword joins mean the
conjunction or the disjunction of what they mean.
-/

set_option autoImplicit false

namespace MapQuery

namespace Level

theorem run?_follow_blank {b : Text} (hb : Text.blank b = true) (gap : Text)
    (groups : List (Group × Text)) :
    run? (follow ⟨b, []⟩ gap groups).groups = run? groups := by
  induction groups generalizing gap with
  | nil => rfl
  | cons g rest ih =>
    obtain ⟨g, gap'⟩ := g
    have hrest := ih gap'
    cases rest with
    | nil => simp [follow, run?, Text.blank_append hb]
    | cons next rest =>
      simp only [follow, run?] at hrest ⊢
      rw [hrest]

theorem text_follow (m : Level) (gap : Text) (groups : List (Group × Text)) :
    (follow m gap groups).text = (⟨gap, groups⟩ : Level).text ++ m.text := by
  induction groups generalizing gap with
  | nil => simp [follow, text]
  | cons g rest ih =>
    have := ih g.2
    simp only [text] at this
    simp [follow, text, this]

theorem negated?_follow_blank {b : Text} (hb : Text.blank b = true) (l : Level) :
    (l.append ⟨b, []⟩).negated? = l.negated? := by
  obtain ⟨gap, groups⟩ := l
  rcases groups with - | ⟨⟨g, gap'⟩, - | ⟨next, rest⟩⟩
  · rfl
  · simp [append, follow, negated?, Text.blank_append hb]
  · rfl

theorem meaning_append_blank {b : Text} (hb : Text.blank b = true) (l : Level) :
    (l.append ⟨b, []⟩).meaning = l.meaning := by
  have htext : Text.trim (l.append ⟨b, []⟩).text = Text.trim l.text := by
    have hend : (⟨b, []⟩ : Level).text = b := by simp [text]
    rw [append, text_follow, hend, Text.trim_append_of_blank_right hb]
  have hrun : run? (l.append ⟨b, []⟩).groups = run? l.groups :=
    run?_follow_blank hb l.gap l.groups
  have hgap : run? l.groups = none ∨ (l.append ⟨b, []⟩).gap = l.gap := by
    obtain ⟨gap, - | ⟨g, rest⟩⟩ := l
    · exact .inl rfl
    · exact .inr rfl
  rcases hgap with hnone | hgap
  · simp [meaning, hrun, hnone, htext, negated?_follow_blank hb]
  · simp [meaning, hrun, hgap, htext, negated?_follow_blank hb]

theorem meaning_widenBy_blank {a : Text} (ha : Text.blank a = true) (l : Level) :
    (l.widenBy a).meaning = l.meaning := by
  have hblank : Text.blank (a ++ l.gap) = Text.blank l.gap := by
    simp only [Text.blank, List.all_append] at ha ⊢
    simp [ha]
  have htext : Text.trim (l.widenBy a).text = Text.trim l.text := by
    simpa [text, widenBy] using Text.trim_append_of_blank_left ha l.text
  have hgap : Text.trim (a ++ l.gap) = Text.trim l.gap := Text.trim_append_of_blank_left ha l.gap
  simp only [meaning, htext]
  simp only [negated?, widenBy, hblank, hgap]

/-- Blanks around a text do not change what it means. -/
theorem ofText?_trim {t : Text} {l : Level} (h : ofText? t = some l) :
    ∃ k, ofText? (Text.trim t) = some k ∧ k.meaning = l.meaning := by
  obtain ⟨a, b, ha, hb, ht⟩ := Text.exists_trim t
  have hunmarked : ∀ c ∈ a, isMark c = false := fun c hc =>
    isMark_of_isBlank (Text.isBlank_of_blank ha c hc)
  rw [ht, List.append_assoc, ofText?_unmarked hunmarked] at h
  obtain ⟨m, hm, rfl⟩ := Option.map_eq_some_iff.1 h
  obtain ⟨⟨k, rest⟩, hk, hfollow⟩ :=
    Levels.ofText?_of_append_blank hb (ofText?_eq_some_iff.1 hm)
  cases rest with
  | cons k' rest => simp [Levels.follow] at hfollow
  | nil =>
    obtain rfl : m = k.append ⟨b, []⟩ := by simpa [Levels.follow] using hfollow
    refine ⟨k, ofText?_eq_some_iff.2 hk, ?_⟩
    rw [meaning_widenBy_blank ha, meaning_append_blank hb]

end Level

/-- One or more predicates joined by AND. -/
def Predicate.allOf (p : Predicate) : List Predicate → Predicate
  | [] => p
  | q :: rest => .join .and p (allOf q rest)

theorem Predicate.holds_allOf (v : Text → Bool) (p : Predicate) (rest : List Predicate) :
    (allOf p rest).holds v = ((p :: rest).all fun q => q.holds v) := by
  induction rest generalizing p with
  | nil => simp [allOf]
  | cons q rest ih => simp [allOf, holds, Connective.holds, ih q]

namespace Connective

/-- The sides of the ORs between groups under one operator. -/
def sides (op : Connective) (p : Predicate) (rest : List Predicate) : Predicate × List Predicate :=
  match op with
  | .and => (Predicate.allOf p rest, [])
  | .or => (p, rest)

theorem holds_sides (op : Connective) (v : Text → Bool) (p : Predicate) (rest : List Predicate) :
    (Predicate.anyOf (op.sides p rest).1 (op.sides p rest).2).holds v =
      op.holds ((p :: rest).map fun q => q.holds v) := by
  cases op with
  | and => simp [sides, Predicate.holds_anyOf, Predicate.holds_allOf, holds, List.all_map]
  | or => simp [sides, Predicate.holds_anyOf, holds, List.any_map]

end Connective

namespace Level

abbrev cuts (groups : List (Group × Text)) : List (Text × Text) :=
  groups.map fun g => (g.1.text, g.2)

/-- The groups at a level if they are a run, by the rule of scans. -/
def joined? (l : Level) : Option (List Text × Option Connective) :=
  if Text.blank l.gap then Split.joinedGroups? (cuts l.groups) else none

theorem run?_of_joinedGroups? {op : Connective} {groups : List (Group × Text)} {texts : List Text}
    {op' : Option Connective} (h : Split.joinedGroups? (cuts groups) = some (texts, op'))
    (hop : op'.all (· == op) = true) :
    texts = groups.map (·.1.text) ∧
      ∃ g rest, groups = g :: rest ∧
        run? groups = some (op.sides g.1.meaning (rest.map (·.1.meaning))) := by
  induction groups generalizing texts op' with
  | nil => simp [Split.joinedGroups?] at h
  | cons g rest ih =>
    obtain ⟨g, gap⟩ := g
    cases rest with
    | nil =>
      obtain ⟨hblank, hx⟩ := Split.blank_of_joinedGroups?_singleton h
      obtain ⟨rfl, rfl⟩ := Prod.mk.inj hx
      refine ⟨rfl, (g, gap), [], rfl, ?_⟩
      cases op <;> simp [run?, hblank, Connective.sides, Predicate.allOf]
    | cons next rest =>
      obtain ⟨op₁, texts', op₂, hkeyword, hjoined, hsame, hx⟩ :=
        Split.exists_of_joinedGroups?_cons h
      obtain ⟨rfl, rfl⟩ := Prod.mk.inj hx
      obtain rfl : op₁ = op := by simpa using hop
      obtain ⟨rfl, g', rest', hgroups, hrun⟩ := ih hjoined hsame
      obtain ⟨rfl, rfl⟩ := List.cons.inj hgroups
      refine ⟨rfl, (g, gap), next :: rest, rfl, ?_⟩
      cases op₁ <;> simp [run?, hkeyword, hrun, Connective.sides, Predicate.allOf]

/-- A run under one operator is the conjunction or disjunction of its groups. -/
theorem holds_of_joined? {op : Connective} {l : Level} {texts : List Text}
    {op' : Option Connective} (h : l.joined? = some (texts, op'))
    (hop : op'.all (· == op) = true) (v : Text → Bool) :
    texts = l.groups.map (·.1.text) ∧ l.groups ≠ [] ∧
      l.meaning.holds v = op.holds (l.groups.map fun g => g.1.meaning.holds v) := by
  unfold joined? at h
  split at h
  · next hblank =>
    obtain ⟨htexts, g, rest, hgroups, hrun⟩ := run?_of_joinedGroups? h hop
    refine ⟨htexts, by simp [hgroups], ?_⟩
    simp only [meaning, if_pos hblank, hrun]
    rw [Connective.holds_sides, hgroups]
    simp [Function.comp_def]
  · simp at h

end Level
end MapQuery
