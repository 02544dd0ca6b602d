import MapQuery.Proofs.Predicate.Literals

/-!
# Finished texts

A finished text is scanned by its parentheses alone although those of its literals are back. As
long as no literal holds one the scan finds what a reader finds, and a merge of finished texts is
their conjunction.
-/

set_option autoImplicit false

namespace MapQuery

open Quotation (Place literals literalsFrom)

/-- Whether no literal holds parentheses, from some place on. -/
def Quotation.Place.Unbracketed (place : Place) (t : Text) : Prop :=
  (literalsFrom place t).1.Unbracketed ∧ ∀ l ∈ (literalsFrom place t).2, l.Unbracketed

theorem Quotation.Place.Unbracketed.next {place : Place} {c : Char} {t : Text}
    (h : place.Unbracketed (c :: t)) : (place.next c).Unbracketed t := by
  obtain ⟨hfirst, hrest⟩ := h
  cases place with
  | outside =>
    by_cases hc : c = '\''
    · simp only [literalsFrom, if_pos hc, List.forall_mem_cons] at hrest
      simpa [Unbracketed, Place.next, hc] using hrest
    · simp only [literalsFrom, if_neg hc] at hfirst hrest
      simpa [Unbracketed, Place.next, hc] using ⟨hfirst, hrest⟩
  | inside =>
    by_cases hc : c = '\''
    · simp only [literalsFrom, if_pos hc] at hfirst hrest
      simpa [Unbracketed, Place.next, hc] using ⟨hfirst, hrest⟩
    · simp only [literalsFrom, if_neg hc, Text.unbracketed_cons] at hfirst hrest
      simpa [Unbracketed, Place.next, hc] using ⟨hfirst.2, hrest⟩
  | closing =>
    by_cases hc : c = '\''
    · simp only [literalsFrom, if_pos hc, Text.unbracketed_cons] at hfirst hrest
      simpa [Unbracketed, Place.next, hc] using ⟨hfirst.2.2, hrest⟩
    · simp only [literalsFrom, if_neg hc] at hrest
      have hnone := literalsFrom_outside_fst t
      simpa [Unbracketed, Place.next, hc, hnone, Text.Unbracketed] using hrest

theorem Quotation.Place.Unbracketed.head {place : Place} {c : Char} {t : Text}
    (h : place.Unbracketed (c :: t)) (hplace : place.quoted = true) : c ≠ '(' ∧ c ≠ ')' := by
  cases place with
  | inside =>
    by_cases hc : c = '\''
    · rw [hc]
      decide
    · have hfirst := h.1
      rw [literalsFrom, if_neg hc] at hfirst
      exact (Text.unbracketed_cons.1 hfirst).1
  | outside | closing => simp [Place.quoted] at hplace

namespace Levels

/-- What is left of the group of the outermost level that is open. -/
def openText : Level → List Level → Text
  | _, [] => []
  | inner, outer :: rest => inner.text ++ ')' :: openText outer rest

def outermost : Level → List Level → Level
  | inner, [] => inner
  | _, outer :: rest => outermost outer rest

/-- The outline of a text that is read so. -/
def outline (ls : Levels) : Outline where
  openRest := openText ls.1 ls.2
  gap := (outermost ls.1 ls.2).gap
  groups := Level.cuts (outermost ls.1 ls.2).groups

theorem scan_widen {c : Char} (hc : c ≠ '(' ∧ c ≠ ')') {t : Text} {ls : Levels}
    (h : Outline.ofText? ls.2.length t = some ls.outline) :
    Outline.ofText? (ls.widen c).2.length (c :: t) = some (ls.widen c).outline := by
  obtain ⟨inner, rest⟩ := ls
  cases rest with
  | nil =>
    simp only [widen, List.length_nil, Outline.ofText?, if_neg hc.1, if_neg hc.2] at h ⊢
    rw [h]
    rfl
  | cons outer rest =>
    simp only [widen, List.length_cons, Outline.ofText?, if_neg hc.1, if_neg hc.2] at h ⊢
    rw [h]
    rfl

theorem scan_opened {t : Text} {ls ls' : Levels} (hopened : opened ls = some ls')
    (h : Outline.ofText? ls.2.length t = some ls.outline) :
    Outline.ofText? ls'.2.length ('(' :: t) = some ls'.outline := by
  obtain ⟨inner, rest⟩ := ls
  cases rest with
  | nil => simp [opened] at hopened
  | cons outer rest =>
    obtain rfl := Option.some.inj hopened
    cases rest with
    | nil =>
      simp only [List.length_cons, List.length_nil, Nat.zero_add] at h
      simp only [List.length_nil, Outline.ofText?, if_true, h]
      rfl
    | cons next rest =>
      simp only [List.length_cons] at h ⊢
      simp only [Outline.ofText?, if_true, h]
      simp [outline, openText, outermost, Outline.extend, Level.group, Text.paren]

theorem scan_closed {t : Text} {ls : Levels}
    (h : Outline.ofText? ls.2.length t = some ls.outline) :
    Outline.ofText? ls.closed.2.length (')' :: t) = some ls.closed.outline := by
  have hne : ')' ≠ '(' := by decide
  simp only [closed, List.length_cons, Outline.ofText?, if_neg hne, if_true, h]
  rfl

/-- Where no literal holds a parenthesis, the scan of a text finds the outermost level. -/
theorem scan_of_ofText? {place : Place} {t : Text} {ls : Levels}
    (h : ofText? place.quoted t = some ls) (hliterals : place.Unbracketed t) :
    Outline.ofText? ls.2.length t = some ls.outline := by
  -- The depth of the scan is the number of levels that are open around the innermost one.
  induction t generalizing place ls with
  | nil =>
    cases place with
    | inside => simp [ofText?, Place.quoted] at h
    | outside | closing =>
      obtain rfl := Option.some.inj h
      rfl
  | cons c t ih =>
    have hnext := hliterals.next
    cases hplace : place.quoted with
    | true =>
      rw [hplace, ofText?, ← Place.quoted_next_of_quoted hplace] at h
      obtain ⟨ls', hls', rfl⟩ := Option.map_eq_some_iff.1 h
      exact scan_widen (hliterals.head hplace) (ih hls' hnext)
    | false =>
      have hquoted := Place.quoted_next_of_unquoted hplace c
      rw [hplace, ofText?] at h
      split at h
      · next hopen =>
        subst hopen
        obtain ⟨ls', hls', hopened⟩ := Option.bind_eq_some_iff.1 h
        exact scan_opened hopened (ih (hquoted ▸ hls') hnext)
      · next hopen =>
        split at h
        · next hclose =>
          subst hclose
          obtain ⟨ls', hls', rfl⟩ := Option.map_eq_some_iff.1 h
          exact scan_closed (ih (hquoted ▸ hls') hnext)
        · next hclose =>
          obtain ⟨ls', hls', rfl⟩ := Option.map_eq_some_iff.1 h
          exact scan_widen ⟨hopen, hclose⟩ (ih (hquoted ▸ hls') hnext)

end Levels

/-- The truth of a parameter value; a blank one restricts nothing. -/
def valueHolds? (v : Text → Bool) (value : Text) : Option Bool :=
  if Text.blank value then some true else (Predicate.ofText? value).map (·.holds v)

/-- Whether parentheses and quotes of a text match. -/
def Text.IsBalanced (t : Text) : Prop := (Level.ofText? t).isSome = true

instance (t : Text) : Decidable t.IsBalanced :=
  inferInstanceAs (Decidable ((Level.ofText? t).isSome = true))

/-- Whether scans of a finished text find the groups that it is read with. -/
abbrev Text.IsHeeded (t : Text) : Prop := Rendering.asIs.HeedsThroughout t

theorem Split.groupsOf?_of_ofText? {t : Text} {l : Level} (h : Level.ofText? t = some l)
    (hliterals : ∀ s ∈ literals t, s.Unbracketed) : groupsOf? t = l.joined? := by
  have hplace : Place.outside.Unbracketed t := by
    refine ⟨?_, hliterals⟩
    rw [Quotation.literalsFrom_outside_fst]
    simp [Text.Unbracketed]
  have hread : Levels.ofText? Place.outside.quoted t = some (l, []) :=
    Level.ofText?_eq_some_iff.1 h
  have hscan := Levels.scan_of_ofText? hread hplace
  simp only [List.length_nil] at hscan
  rw [groupsOf?, hscan]
  rfl

theorem heeds_of_literals {t : Text} {l : Level} (h : Level.ofText? t = some l)
    (hliterals : ∀ s ∈ literals t, s.Unbracketed) : Rendering.asIs.Heeds t := by
  rintro ⟨groups, op⟩ hx
  rw [Option.mem_def, Split.groupsOf?_of_ofText? h hliterals] at hx
  have hshown : groups.map Rendering.asIs.text = groups := by
    simp [funext Rendering.text_asIs]
  rw [Rendering.text_asIs, h, Option.bind_some, hx, hshown]

/-- A text is heeded if none of its literals holds a parenthesis. -/
theorem isHeeded_of_literals {t : Text} (ht : t.IsBalanced)
    (hliterals : ∀ s ∈ literals t, s.Unbracketed) : t.IsHeeded := by
  obtain ⟨l, hl⟩ := Option.isSome_iff_exists.1 ht
  obtain ⟨m, hm, -⟩ := Level.ofText?_trim hl
  have htrim : ∀ s ∈ literals (Text.trim t), s.Unbracketed := by
    rwa [Quotation.literals_trim hm]
  refine ⟨heeds_of_literals hm htrim, ?_⟩
  rintro ⟨groups, op⟩ hx rfl
  obtain ⟨g, rfl⟩ := Split.eq_singleton_of_groupsOf? hx
  rw [Option.mem_def, Split.groupsOf?_of_ofText? hm htrim] at hx
  -- A lone group is the whole text, so that its inside has the same literals.
  obtain ⟨k, hk, hg, hwhole⟩ := exists_of_lone (r := .asIs) (Text.trim_trim t)
    (by rwa [Rendering.text_asIs]) (by rwa [Rendering.text_asIs])
  rw [Rendering.text_asIs] at hg hwhole
  have hinside : Split.inside g = k.text := by simp [hg, Level.group, Split.inside, Text.paren]
  have hsame : literals (Text.trim t) = literals k.text := by
    rw [hwhole]
    exact Quotation.literals_paren hk
  rw [List.headD_cons, hinside]
  exact heeds_of_literals hk (hsame ▸ htrim)

theorem exists_contributes {t : Text} (ht : t.IsBalanced) (hheeds : t.IsHeeded) (v : Text → Bool) :
    ∃ o, Contributes .asIs v t o ∧ valueHolds? v t = some (o.getD true) := by
  obtain ⟨k, hk⟩ := Option.isSome_iff_exists.1 ht
  unfold valueHolds?
  cases hblank : Text.blank t with
  | true => exact ⟨none, .blank hblank, rfl⟩
  | false =>
    refine ⟨some (k.meaning.holds v), .reading hblank (by simpa using hk) hheeds, ?_⟩
    simp [Predicate.ofText?, hk]

theorem valueHolds?_of_isFragment {v : Text → Bool} {t : Text} {o : Option Bool}
    (h : IsFragment .asIs v t o) :
    t.IsBalanced ∧ valueHolds? v t = some (o.getD true) := by
  cases h with
  | empty => exact ⟨rfl, rfl⟩
  | group hgroup =>
    obtain ⟨k, hk, htext, rfl⟩ := hgroup
    rw [Rendering.text_asIs] at htext
    subst htext
    have hread : Level.ofText? k.group.text = some (Level.empty.before k.group) :=
      Level.ofText?_paren hk
    have hblank : Text.blank k.group.text = false := rfl
    refine ⟨by simp [Text.IsBalanced, hread], ?_⟩
    simp only [valueHolds?, hblank, Predicate.ofText?, hread]
    rfl

theorem exists_valueHolds? {t : Text} (ht : t.IsBalanced) (v : Text → Bool) :
    ∃ b, valueHolds? v t = some b := by
  obtain ⟨k, hk⟩ := Option.isSome_iff_exists.1 ht
  unfold valueHolds?
  split
  · exact ⟨true, rfl⟩
  · exact ⟨k.meaning.holds v, by simp [Predicate.ofText?, hk]⟩

/-- Whether a text reads as the conjunction of two others and has the literals of both. -/
structure IsConjunction (t existing addition : Text) : Prop where
  balanced : t.IsBalanced
  literals : literals t = literals existing ++ literals addition
  holds : ∀ v, ∃ b b', valueHolds? v existing = some b ∧ valueHolds? v addition = some b' ∧
    valueHolds? v t = some (b && b')

theorem isConjunction_merge {existing addition : Text} (hexisting : existing.IsBalanced)
    (haddition : addition.IsBalanced) (hfirst : existing.IsHeeded) (hsecond : addition.IsHeeded) :
    IsConjunction (Junction.merge .and [existing, addition]) existing addition := by
  have hmerge : ∀ v, ∃ o o', valueHolds? v existing = some (o.getD true) ∧
      valueHolds? v addition = some (o'.getD true) ∧
      List.Forall₂ (Contributes .asIs v) [existing, addition] [o, o'] := by
    intro v
    obtain ⟨o, ho, hvalue⟩ := exists_contributes hexisting hfirst v
    obtain ⟨o', ho', hvalue'⟩ := exists_contributes haddition hsecond v
    exact ⟨o, o', hvalue, hvalue', .cons ho (.cons ho' .nil)⟩
  obtain ⟨_, _, -, -, hany⟩ := hmerge fun _ => true
  constructor
  case balanced => exact (valueHolds?_of_isFragment (isFragment_merge hany)).1
  case literals =>
    rw [Quotation.literals_merge hany]
    simp
  case holds =>
    intro v
    obtain ⟨o, o', hvalue, hvalue', h⟩ := hmerge v
    have hmerged : IsFragment .asIs v _ (Connective.and.holds? [o, o']) := isFragment_merge h
    have hholds := (valueHolds?_of_isFragment hmerged).2
    rw [Connective.getD_holds?_and] at hholds
    exact ⟨_, _, hvalue, hvalue', by simpa using hholds⟩

theorem isConjunction_of_blank {existing addition : Text} (hexisting : Text.blank existing = true)
    (haddition : addition.IsBalanced) : IsConjunction addition existing addition := by
  constructor
  case balanced => exact haddition
  case literals =>
    rw [Quotation.literals_of_unquoted (Quotation.unquoted_of_blank hexisting), List.nil_append]
  case holds =>
    intro v
    obtain ⟨b', hb'⟩ := exists_valueHolds? haddition v
    exact ⟨true, b', by simp [valueHolds?, hexisting], hb', hb'⟩

theorem isConjunction_self {existing : Text} (hexisting : existing.IsBalanced) :
    IsConjunction existing existing [] := by
  constructor
  case balanced => exact hexisting
  case literals => simp
  case holds =>
    intro v
    obtain ⟨b, hb⟩ := exists_valueHolds? hexisting v
    exact ⟨b, true, hb, rfl, by simpa using hb⟩

theorem isHeeded_nil : Text.IsHeeded [] := by
  constructor
  · intro x hx
    cases hx
  · intro x hx
    cases hx

theorem isConjunction_mergeFilter {found addition : Text} (hfound : found.IsBalanced)
    (haddition : addition.IsBalanced)
    (hscans : found ≠ [] → found.IsHeeded ∧ addition.IsHeeded) :
    IsConjunction (if found.isEmpty then addition else Junction.merge .and [found, addition])
      found addition := by
  cases found with
  | nil => exact isConjunction_of_blank rfl haddition
  | cons c t =>
    obtain ⟨hfirst, hsecond⟩ := hscans (by simp)
    exact isConjunction_merge hfound haddition hfirst hsecond

theorem merge_ne_nil {existing addition : Text} (hexisting : existing.IsBalanced)
    (haddition : addition.IsBalanced) (hfirst : existing.IsHeeded) (hsecond : addition.IsHeeded)
    (hblank : Text.blank addition = false) : Junction.merge .and [existing, addition] ≠ [] := by
  obtain ⟨o, ho, -⟩ := exists_contributes hexisting hfirst fun _ => true
  obtain ⟨o', ho', -⟩ := exists_contributes haddition hsecond fun _ => true
  have hmerged : IsFragment .asIs _ (Junction.merge .and [existing, addition])
      (Connective.and.holds? [o, o']) := isFragment_merge (.cons ho (.cons ho' .nil))
  intro hnil
  rw [hnil] at hmerged
  cases ho' with
  | blank h => simp [h] at hblank
  | reading _ _ _ =>
    cases o <;>
    · cases hmerged with
      | group hgroup =>
        obtain ⟨k, -, htext, -⟩ := hgroup
        simp [Level.group, Text.paren] at htext

end MapQuery
