import Mathlib.Data.List.Infix
import MapQuery.Dialect.WhereClause

/-!
# What patterns match

A stored pattern is read from left to right as a sequence of parts, and matches the texts that the
parts make up one after another. Written with `%` and `_` it matches the same texts, as long as it
has none of these two as literals, for which that alphabet has no letters. In where clauses it is
matched in capitals, and looked for anywhere in a text if it has no wildcard.
-/

set_option autoImplicit false

namespace MapQuery

/-! ## Reading and matching -/

/-- How a stored pattern is read, from left to right. The escape comes before the wildcard and the
wildcard before the single character, where they are one and the same. -/
inductive PatternStyle.Reads (s : PatternStyle) : Text → List PatternPart → Prop where
  | done : Reads s [] []
  | escaped (c : Char) {t : Text} {ps : List PatternPart} : Reads s t ps →
      Reads s (s.escape :: c :: t) (.literal c :: ps)
  /-- An escape at the very end stands for itself. -/
  | dangling : Reads s [s.escape] [.literal s.escape]
  | anyRun {t : Text} {ps : List PatternPart} : s.wild ≠ s.escape → Reads s t ps →
      Reads s (s.wild :: t) (.anyRun :: ps)
  | anyOne {t : Text} {ps : List PatternPart} : s.single ≠ s.escape → s.single ≠ s.wild →
      Reads s t ps → Reads s (s.single :: t) (.anyOne :: ps)
  | literal {c : Char} {t : Text} {ps : List PatternPart} : c ≠ s.escape → c ≠ s.wild →
      c ≠ s.single → Reads s t ps → Reads s (c :: t) (.literal c :: ps)

namespace PatternPart

/-- The texts that parts make up one after another. -/
inductive Matches : List PatternPart → Text → Prop where
  | nil : Matches [] []
  | literal (c : Char) {ps : List PatternPart} {t : Text} : Matches ps t →
      Matches (.literal c :: ps) (c :: t)
  | anyOne (c : Char) {ps : List PatternPart} {t : Text} : Matches ps t →
      Matches (.anyOne :: ps) (c :: t)
  | anyRun (u : Text) {ps : List PatternPart} {t : Text} : Matches ps t →
      Matches (.anyRun :: ps) (u ++ t)

/-- The part that a character is in the alphabet of `%` and `_`, which has no escape. -/
def ofPercentForm (c : Char) : PatternPart :=
  if c = '%' then .anyRun else if c = '_' then .anyOne else .literal c

/-- Whether a part stands for characters that it does not name. -/
def isActive : PatternPart → Bool
  | .literal _ => false
  | .anyRun | .anyOne => true

/-- A part in capitals, which may be several characters for one. -/
def capitals : PatternPart → List PatternPart
  | .literal c => (UpperCase.ofChar c).map .literal
  | .anyRun => [.anyRun]
  | .anyOne => [.anyOne]

end PatternPart

open PatternPart (ofPercentForm)

/-- Whether a stored pattern matches a text. -/
def PatternStyle.Matches (s : PatternStyle) (pattern subject : Text) : Prop :=
  ∃ parts, s.Reads pattern parts ∧ PatternPart.Matches parts subject

/-- Whether a pattern in the alphabet of `%` and `_` matches a text. -/
def PercentMatches (pattern subject : Text) : Prop :=
  PatternPart.Matches (pattern.map ofPercentForm) subject

namespace PatternStyle

variable {s : PatternStyle}

theorem reads_part {c : Char} (h : c ≠ s.escape) {t : Text} {ps : List PatternPart}
    (ht : s.Reads t ps) : s.Reads (c :: t) (s.part c :: ps) := by
  unfold part
  split
  · next hwild =>
    subst hwild
    exact .anyRun h ht
  · next hwild =>
    split
    · next hsingle =>
      subst hsingle
      exact .anyOne h hwild ht
    · next hsingle => exact .literal h hwild hsingle ht

/-- Every pattern can be read. -/
theorem reads_parts (s : PatternStyle) (t : Text) : s.Reads t (s.parts t) := by
  fun_induction parts s t with
  | case1 => exact .done
  | case2 c =>
    split
    · next h =>
      subst h
      exact .dangling
    · next h => exact reads_part h .done
  | case3 d t ih => exact .escaped d ih
  | case4 c d t h ih => exact reads_part h ih

theorem parts_cons_of_ne {c : Char} (h : c ≠ s.escape) (t : Text) :
    s.parts (c :: t) = s.part c :: s.parts t := by
  cases t with
  | nil => simp [parts, h]
  | cons d t => simp [parts, h]

/-- A pattern is read in one way. -/
theorem Reads.eq_parts {t : Text} {ps : List PatternPart} (h : s.Reads t ps) :
    ps = s.parts t := by
  induction h with
  | done => rfl
  | escaped c _ ih => simp [parts, ih]
  | dangling => simp [parts]
  | anyRun hescape _ ih => rw [parts_cons_of_ne hescape, ih, part, if_pos rfl]
  | anyOne hescape hwild _ ih =>
    rw [parts_cons_of_ne hescape, ih, part, if_neg hwild, if_pos rfl]
  | literal hescape hwild hsingle _ ih =>
    rw [parts_cons_of_ne hescape, ih, part, if_neg hwild, if_neg hsingle]

theorem reads_iff {t : Text} {ps : List PatternPart} : s.Reads t ps ↔ ps = s.parts t := by
  constructor
  · exact Reads.eq_parts
  · rintro rfl
    exact reads_parts s t

theorem matches_iff {pattern subject : Text} :
    s.Matches pattern subject ↔ PatternPart.Matches (s.parts pattern) subject := by
  simp only [Matches, reads_iff, exists_eq_left]

end PatternStyle

/-! ## The alphabet of `%` and `_` -/

namespace PatternPart

/-- Whether neither `%` nor `_` is a literal part. -/
def ArePlain (parts : List PatternPart) : Prop :=
  .literal '%' ∉ parts ∧ .literal '_' ∉ parts

instance (parts : List PatternPart) : Decidable (ArePlain parts) :=
  inferInstanceAs (Decidable (_ ∧ _))

variable {parts : List PatternPart}

theorem ArePlain.ne_of_mem (h : ArePlain parts) {c : Char} (hc : .literal c ∈ parts) :
    c ≠ '%' ∧ c ≠ '_' := by
  constructor
  · rintro rfl
    exact h.1 hc
  · rintro rfl
    exact h.2 hc

theorem ofPercentForm_percentForm (h : ArePlain parts) {p : PatternPart} (hp : p ∈ parts) :
    ofPercentForm p.percentForm = p := by
  cases p with
  | literal c =>
    obtain ⟨hpercent, hunderscore⟩ := h.ne_of_mem hp
    simp [percentForm, ofPercentForm, hpercent, hunderscore]
  | anyRun => rfl
  | anyOne => rfl

theorem map_ofPercentForm (h : ArePlain parts) :
    (parts.map percentForm).map ofPercentForm = parts := by
  rw [List.map_map]
  conv => rhs; rw [← List.map_id parts]
  exact List.map_congr_left fun p hp => ofPercentForm_percentForm h hp

theorem hasPercentWildcard_map (h : ArePlain parts) :
    hasPercentWildcard (parts.map percentForm) = parts.any isActive := by
  have hsame : ∀ p ∈ parts, (p.percentForm == '%' || p.percentForm == '_') = p.isActive := by
    intro p hp
    cases p with
    | literal c =>
      obtain ⟨hpercent, hunderscore⟩ := h.ne_of_mem hp
      simp [percentForm, isActive, hpercent, hunderscore]
    | anyRun => rfl
    | anyOne => rfl
  rw [hasPercentWildcard, List.any_map, Bool.eq_iff_iff, List.any_eq_true, List.any_eq_true]
  constructor
  · rintro ⟨p, hp, hactive⟩
    exact ⟨p, hp, (hsame p hp).symm.trans hactive⟩
  · rintro ⟨p, hp, hactive⟩
    exact ⟨p, hp, (hsame p hp).trans hactive⟩

end PatternPart

/-! ## Capitals -/

theorem Char.toNat_ofNat_of_ne_zero {n : Nat} (h : (Char.ofNat n).toNat ≠ 0) :
    (Char.ofNat n).toNat = n := by
  by_cases hvalid : n.isValidChar
  · have hchar : Char.ofNat n = Char.ofNatAux n hvalid := dif_pos hvalid
    rw [hchar]
    rfl
  · exact absurd (congrArg Char.toNat (dif_neg hvalid)) h

namespace UpperCase

/-- No letter has `%` or `_` for its one capital. -/
theorem all_runs : runs.all (fun r => ['%', '_'].all fun d =>
    decide ((d.toNat : Int) - r.shift < r.first ∨ (r.last : Int) < d.toNat - r.shift)) = true := by
  decide +kernel

theorem all_expansions : expansions.all (fun e => ['%', '_'].all fun d =>
    decide (d ∉ e.2.map Char.ofNat)) = true := by
  decide +kernel

theorem all_ofChar : (['%', '_'].all fun d => ofChar d == [d]) = true := by decide +kernel

theorem ofChar_of_mem {d : Char} (hd : d ∈ ['%', '_']) : ofChar d = [d] :=
  eq_of_beq (List.all_eq_true.1 all_ofChar d hd)

theorem toNat_ne_zero_of_mem {d : Char} (hd : d ∈ ['%', '_']) : d.toNat ≠ 0 := by
  simp only [List.mem_cons, List.not_mem_nil, or_false] at hd
  rcases hd with rfl | rfl <;> decide

/-- No other character has `%` or `_` among its capitals. -/
theorem eq_of_mem_ofChar {c d : Char} (hd : d ∈ ['%', '_']) (h : d ∈ ofChar c) : c = d := by
  unfold ofChar at h
  split at h
  · next r hr =>
    have hrun := List.all_eq_true.1
      (List.all_eq_true.1 all_runs r (List.mem_of_find?_eq_some hr)) d hd
    rw [decide_eq_true_eq] at hrun
    have hcovers := List.find?_some hr
    simp only [Run.covers, Bool.and_eq_true, decide_eq_true_eq] at hcovers
    have hnonzero := toNat_ne_zero_of_mem hd
    have hcapital := List.mem_singleton.1 h
    have hcode : d.toNat = (c.toNat + r.shift).toNat := by
      rw [hcapital] at hnonzero ⊢
      exact Char.toNat_ofNat_of_ne_zero hnonzero
    omega
  · split at h
    · next units hunits =>
      obtain ⟨before, after, hexpansions, -⟩ := List.lookup_eq_some_iff.1 hunits
      have hmem : (c.toNat, units) ∈ expansions := by simp [hexpansions]
      have hnone := List.all_eq_true.1 (List.all_eq_true.1 all_expansions _ hmem) d hd
      exact absurd h (of_decide_eq_true hnone)
    · exact (List.mem_singleton.1 h).symm

end UpperCase

namespace PatternPart

variable {parts : List PatternPart}

theorem map_ofPercentForm_capitals (h : ArePlain parts) {p : PatternPart} (hp : p ∈ parts) :
    (UpperCase.ofChar p.percentForm).map ofPercentForm = p.capitals := by
  cases p with
  | literal c =>
    obtain ⟨hpercent, hunderscore⟩ := h.ne_of_mem hp
    apply List.map_congr_left
    intro d hd
    have hd₁ : d ≠ '%' := by
      rintro rfl
      exact hpercent (UpperCase.eq_of_mem_ofChar (by decide) hd)
    have hd₂ : d ≠ '_' := by
      rintro rfl
      exact hunderscore (UpperCase.eq_of_mem_ofChar (by decide) hd)
    simp [ofPercentForm, hd₁, hd₂]
  | anyRun =>
    rw [percentForm, UpperCase.ofChar_of_mem (by decide)]
    rfl
  | anyOne =>
    rw [percentForm, UpperCase.ofChar_of_mem (by decide)]
    rfl

/-- In capitals every part stays where it is. -/
theorem map_ofPercentForm_upper (h : ArePlain parts) :
    (Text.upper (parts.map percentForm)).map ofPercentForm = parts.flatMap capitals := by
  rw [Text.upper, List.flatMap_map, List.map_flatMap]
  exact List.flatMap_congr fun p hp => map_ofPercentForm_capitals h hp

theorem any_isActive_iff :
    parts.any isActive = true ↔ .anyRun ∈ parts ∨ .anyOne ∈ parts := by
  rw [List.any_eq_true]
  constructor
  · rintro ⟨p, hp, hactive⟩
    cases p with
    | literal c => cases hactive
    | anyRun => exact .inl hp
    | anyOne => exact .inr hp
  · rintro (hp | hp)
    · exact ⟨_, hp, rfl⟩
    · exact ⟨_, hp, rfl⟩

theorem exists_literals (h : parts.any isActive = false) :
    ∃ w : Text, parts = w.map .literal := by
  induction parts with
  | nil => exact ⟨[], rfl⟩
  | cons p parts ih =>
    simp only [List.any_cons, Bool.or_eq_false_iff] at h
    obtain ⟨w, rfl⟩ := ih h.2
    cases p with
    | literal c => exact ⟨c :: w, rfl⟩
    | anyRun => cases h.1
    | anyOne => cases h.1

/-! ## Texts that hold a text -/

theorem matches_literals_append {w : Text} {subject : Text} :
    Matches (w.map .literal ++ parts) subject ↔ ∃ t, subject = w ++ t ∧ Matches parts t := by
  induction w generalizing subject with
  | nil => simp
  | cons c w ih =>
    constructor
    · intro h
      cases h with
      | literal _ hrest =>
        obtain ⟨t, rfl, ht⟩ := ih.1 hrest
        exact ⟨t, rfl, ht⟩
    · rintro ⟨t, rfl, ht⟩
      exact .literal c (ih.2 ⟨t, rfl, ht⟩)

theorem matches_anyRun_cons {subject : Text} :
    Matches (.anyRun :: parts) subject ↔ ∃ u t, subject = u ++ t ∧ Matches parts t := by
  constructor
  · intro h
    cases h with
    | anyRun u ht => exact ⟨u, _, rfl, ht⟩
  · rintro ⟨u, t, rfl, ht⟩
    exact .anyRun u ht

/-- Literals between two runs match the texts that hold them somewhere. -/
theorem matches_between_runs {w subject : Text} :
    Matches (.anyRun :: (w.map .literal ++ [.anyRun])) subject ↔ w <:+: subject := by
  rw [matches_anyRun_cons]
  constructor
  · rintro ⟨u, t, rfl, ht⟩
    obtain ⟨v, rfl, -⟩ := matches_literals_append.1 ht
    exact ⟨u, v, List.append_assoc u w v⟩
  · rintro ⟨u, v, rfl⟩
    have hend : Matches [.anyRun] v := by
      have hall := Matches.anyRun v .nil
      rwa [List.append_nil] at hall
    exact ⟨u, w ++ v, List.append_assoc u w v, matches_literals_append.2 ⟨v, rfl, hend⟩⟩

theorem flatMap_capitals_literals (w : Text) :
    (w.map PatternPart.literal).flatMap capitals = (Text.upper w).map .literal := by
  rw [Text.upper, List.flatMap_map, List.map_flatMap]
  rfl

end PatternPart

open PatternPart (ArePlain capitals)

/-- A pattern that has neither `%` nor `_` as a literal matches the same texts in the alphabet of
these two, in which it has a wildcard exactly if it had one. Where clauses send its parts in
capitals, each in its place; a pattern without wildcards matches what holds its capitals. -/
theorem percentText_matches {s : PatternStyle} {pattern : Text}
    (h : ∀ parts, s.Reads pattern parts → ArePlain parts) :
    ∃ parts, (∀ ps, s.Reads pattern ps ↔ ps = parts) ∧
      (∀ subject, s.Matches pattern subject ↔ PercentMatches (s.percentText pattern) subject) ∧
      (hasPercentWildcard (s.percentText pattern) = true ↔
        .anyRun ∈ parts ∨ .anyOne ∈ parts) ∧
      (.anyRun ∈ parts ∨ .anyOne ∈ parts →
        (WhereClause.sentPattern (s.percentText pattern)).map ofPercentForm =
          parts.flatMap capitals) ∧
      (¬ (.anyRun ∈ parts ∨ .anyOne ∈ parts) → ∃ w : Text, parts = w.map .literal ∧
        ∀ subject, PercentMatches (WhereClause.sentPattern (s.percentText pattern)) subject ↔
          Text.upper w <:+: subject) := by
  have hplain : ArePlain (s.parts pattern) := h _ (s.reads_parts pattern)
  have hwildcard : hasPercentWildcard (s.percentText pattern) = (s.parts pattern).any _ :=
    PatternPart.hasPercentWildcard_map hplain
  have hcapitals : (Text.upper (s.percentText pattern)).map ofPercentForm =
      (s.parts pattern).flatMap capitals := PatternPart.map_ofPercentForm_upper hplain
  refine ⟨s.parts pattern, fun ps => PatternStyle.reads_iff, ?_, ?_, ?_, ?_⟩
  · intro subject
    rw [PatternStyle.matches_iff, PercentMatches, PatternStyle.percentText,
      PatternPart.map_ofPercentForm hplain]
  · rw [hwildcard, PatternPart.any_isActive_iff]
  · intro hactive
    rw [← PatternPart.any_isActive_iff, ← hwildcard] at hactive
    rw [WhereClause.sentPattern, if_pos hactive, hcapitals]
  · intro hactive
    rw [← PatternPart.any_isActive_iff, ← hwildcard] at hactive
    obtain ⟨w, hw⟩ := PatternPart.exists_literals (by simpa [hwildcard] using hactive)
    refine ⟨w, hw, fun subject => ?_⟩
    rw [WhereClause.sentPattern, if_neg hactive, PercentMatches, ← PatternPart.matches_between_runs,
      List.map_append, List.map_append, hcapitals, hw, PatternPart.flatMap_capitals_literals]
    rfl

/-- A pattern whose wildcard is also its single character, with a literal that is longer in
capitals and an escaped wildcard. -/
theorem percentText_matches_strasse :
    let s : PatternStyle := { wild := '*', single := '*', escape := '!' }
    s.percentText "Stra!ße!**" = "Straße*%" ∧
      (∀ subject, s.Matches "Stra!ße!**" subject ↔ PercentMatches "Straße*%" subject) ∧
      WhereClause.sentPattern "Straße*%" = "STRASSE*%" := by
  intro s
  have htext : s.percentText "Stra!ße!**" = "Straße*%" := by decide +kernel
  have hplain : ∀ parts, s.Reads "Stra!ße!**" parts → ArePlain parts := by
    intro parts hparts
    rw [PatternStyle.reads_iff] at hparts
    subst hparts
    decide +kernel
  obtain ⟨parts, -, hmatches, -⟩ := percentText_matches hplain
  rw [htext] at hmatches
  exact ⟨htext, hmatches, by decide +kernel⟩

end MapQuery
