import Mathlib.Data.List.Infix
import MapQuery.Proofs.Schedule.History

/-!
# The ledger of requests

What a list of deeds says about requests: which were issued, aborted or reported on, which completed
and which are outstanding. A ledger is a list in which requests follow each other one at a time,
each issue and each abort raising a counter; whatever else is said of requests is derived from that.
-/

set_option autoImplicit false

namespace MapQuery

namespace Deed

def issued? : Deed → Option Nat
  | .did (.fetch generation _) => some generation
  | _ => none

def aborted? : Deed → Option Nat
  | .did (.abort generation) => some generation
  | _ => none

/-- The request whose result or failure is made known. -/
def reported? : Deed → Option Nat
  | .did (.deliver generation _) | .did (.failed generation _) => some generation
  | _ => none

/-- The generations of the requests that were issued, in order. -/
def issued (past : List Deed) : List Nat := past.filterMap issued?

/-- The generations that were aborted, in order. -/
def aborted (past : List Deed) : List Nat := past.filterMap aborted?

/-- The generations that results or failures were made known for, in order. -/
def reported (past : List Deed) : List Nat := past.filterMap reported?

/-- A reply to the request was taken up after it was issued and while it was not aborted. -/
def IsCompleted (past : List Deed) (generation : Nat) : Prop :=
  ∃ before reply, before ++ [.took ⟨generation, reply⟩] <+: past ∧
    generation ∈ issued before ∧ generation ∉ aborted before

/-- The request was issued and has neither completed nor been aborted. -/
def IsOutstanding (past : List Deed) (generation : Nat) : Prop :=
  generation ∈ issued past ∧ ¬ IsCompleted past generation ∧ generation ∉ aborted past

variable {past later : List Deed} {generation other : Nat}

@[simp] theorem issued_append : issued (past ++ later) = issued past ++ issued later :=
  List.filterMap_append

@[simp] theorem aborted_append : aborted (past ++ later) = aborted past ++ aborted later :=
  List.filterMap_append

@[simp] theorem reported_append : reported (past ++ later) = reported past ++ reported later :=
  List.filterMap_append

@[simp] theorem issued_nil : issued [] = [] := rfl

@[simp] theorem issued_cons (d : Deed) :
    issued (d :: past) = d.issued?.toList ++ issued past := by
  cases h : d.issued? <;> simp [issued, h]

@[simp] theorem aborted_nil : aborted [] = [] := rfl

@[simp] theorem aborted_cons (d : Deed) :
    aborted (d :: past) = d.aborted?.toList ++ aborted past := by
  cases h : d.aborted? <;> simp [aborted, h]

@[simp] theorem reported_nil : reported [] = [] := rfl

@[simp] theorem reported_cons (d : Deed) :
    reported (d :: past) = d.reported?.toList ++ reported past := by
  cases h : d.reported? <;> simp [reported, h]

theorem eq_of_aborted? {d : Deed} (h : d.aborted? = some generation) :
    d = .did (.abort generation) := by
  unfold aborted? at h
  split at h
  · cases h
    rfl
  · cases h

theorem exists_before {f : Deed → Option Nat} (h : generation ∈ past.filterMap f) :
    ∃ before d, before ++ [d] <+: past ∧ f d = some generation := by
  obtain ⟨d, hd, hf⟩ := List.mem_filterMap.1 h
  obtain ⟨before, after, rfl⟩ := List.append_of_mem hd
  exact ⟨before, d, ⟨after, by simp⟩, hf⟩

theorem prefix_concat {before : List Deed} {d e : Deed} :
    before ++ [d] <+: past ++ [e] ↔ (before = past ∧ d = e) ∨ before ++ [d] <+: past := by
  rw [List.prefix_concat_iff, List.append_singleton_inj]

theorem IsCompleted.mem_issued (h : IsCompleted past generation) : generation ∈ issued past := by
  obtain ⟨before, reply, ⟨rest, rfl⟩, hissued, -⟩ := h
  simp [hissued]

theorem IsCompleted.append (h : IsCompleted past generation) (later : List Deed) :
    IsCompleted (past ++ later) generation := by
  obtain ⟨before, reply, hbefore, hfacts⟩ := h
  exact ⟨before, reply, hbefore.trans (List.prefix_append past later), hfacts⟩

theorem isCompleted_concat {d : Deed} :
    IsCompleted (past ++ [d]) generation ↔ IsCompleted past generation ∨
      (∃ reply, d = .took ⟨generation, reply⟩) ∧
        generation ∈ issued past ∧ generation ∉ aborted past := by
  constructor
  · rintro ⟨before, reply, hbefore, hissued, haborted⟩
    rcases prefix_concat.1 hbefore with ⟨rfl, rfl⟩ | hearlier
    · exact .inr ⟨⟨reply, rfl⟩, hissued, haborted⟩
    · exact .inl ⟨before, reply, hearlier, hissued, haborted⟩
  · rintro (h | ⟨⟨reply, rfl⟩, hissued, haborted⟩)
    · exact h.append [d]
    · exact ⟨past, reply, List.prefix_rfl, hissued, haborted⟩

theorem mem_of_mem_aborted (h : generation ∈ aborted past) : .did (.abort generation) ∈ past := by
  obtain ⟨d, hd, haborted⟩ := List.mem_filterMap.1 h
  rwa [← eq_of_aborted? haborted]

/-- A request that is no longer outstanding has been aborted or a reply to it taken up. -/
theorem aborted_or_took_of_isOutstanding (h : IsOutstanding past generation)
    (hlater : ¬ IsOutstanding (past ++ later) generation) :
    .did (.abort generation) ∈ later ∨ ∃ reply, .took ⟨generation, reply⟩ ∈ later := by
  obtain ⟨hissued, hcompleted, haborted⟩ := h
  by_cases hclosed : generation ∈ aborted later
  · exact .inl (mem_of_mem_aborted hclosed)
  · have hsince : IsCompleted (past ++ later) generation := by
      by_contra hopen
      exact hlater ⟨by simp [hissued], hopen, by simp [haborted, hclosed]⟩
    obtain ⟨before, reply, hbefore, hfacts⟩ := hsince
    have hnew : ¬ before ++ [.took ⟨generation, reply⟩] <+: past :=
      fun hearlier => hcompleted ⟨before, reply, hearlier, hfacts⟩
    obtain ⟨rest, hrest⟩ :=
      (List.prefix_or_prefix_of_prefix hbefore (List.prefix_append past later)).resolve_left hnew
    rcases List.eq_nil_or_concat rest with rfl | ⟨init, d, rfl⟩
    · rw [List.append_nil] at hrest
      exact absurd (hrest ▸ List.prefix_rfl) hnew
    · rw [← hrest, List.prefix_append_right_inj] at hbefore
      rw [List.concat_eq_append, ← List.append_assoc, List.append_singleton_inj] at hrest
      obtain ⟨-, rfl⟩ := hrest
      exact .inr ⟨reply, hbefore.subset (by simp)⟩

/-! ## What one more deed does to the outstanding requests -/

theorem isCompleted_concat_did {e : Effect} :
    IsCompleted (past ++ [.did e]) generation ↔ IsCompleted past generation := by
  simp [isCompleted_concat]

theorem isOutstanding_concat_did {e : Effect} (hissued : issued? (.did e) = none)
    (haborted : aborted? (.did e) = none) :
    IsOutstanding (past ++ [.did e]) generation ↔ IsOutstanding past generation := by
  simp [IsOutstanding, isCompleted_concat_did, hissued, haborted]

theorem isOutstanding_concat_obeyed {command : Command} :
    IsOutstanding (past ++ [.obeyed command]) generation ↔ IsOutstanding past generation := by
  simp [IsOutstanding, isCompleted_concat, issued?, aborted?]

theorem isOutstanding_concat_fetch {params : Parameters} :
    IsOutstanding (past ++ [.did (.fetch other params)]) generation ↔
      (generation ∈ issued past ∨ generation = other) ∧
        ¬ IsCompleted past generation ∧ generation ∉ aborted past := by
  simp [IsOutstanding, isCompleted_concat_did, issued?, aborted?]

theorem isOutstanding_concat_abort :
    IsOutstanding (past ++ [.did (.abort other)]) generation ↔
      IsOutstanding past generation ∧ generation ≠ other := by
  simp [IsOutstanding, isCompleted_concat_did, issued?, aborted?, and_assoc]

theorem isOutstanding_concat_took {response : Response} :
    IsOutstanding (past ++ [.took response]) generation ↔
      IsOutstanding past generation ∧ response.generation ≠ generation := by
  obtain ⟨own, reply⟩ := response
  simp only [IsOutstanding, isCompleted_concat]
  simp [issued?, aborted?]
  tauto

end Deed

open Deed

/-- Requests one at a time: the generation, whether a request is in flight, and the deeds that led
there from some first generation. The request in flight is the one of the generation. -/
inductive Ledger (first : Nat) : Nat → Bool → List Deed → Prop
  | start : Ledger first first false []
  | obeyed {n : Nat} {flies : Bool} {past : List Deed} (h : Ledger first n flies past)
      (command : Command) : Ledger first n flies (past ++ [.obeyed command])
  | cleared {n : Nat} {flies : Bool} {past : List Deed} (h : Ledger first n flies past) :
      Ledger first n flies (past ++ [.did .clear])
  | ignored {n : Nat} {flies : Bool} {past : List Deed} (h : Ledger first n flies past)
      (response : Response) (hstale : flies = true → response.generation ≠ n) :
      Ledger first n flies (past ++ [.took response])
  | issued {n : Nat} {past : List Deed} (h : Ledger first n false past) (params : Parameters) :
      Ledger first (n + 1) true (past ++ [.did (.fetch (n + 1) params)])
  | aborted {n : Nat} {past : List Deed} (h : Ledger first n true past) :
      Ledger first (n + 1) false (past ++ [.did (.abort n)])
  /-- Nothing is made known of a reply that says that the request was aborted. -/
  | completed {n : Nat} {past : List Deed} (h : Ledger first n true past) (reply : Reply) :
      Ledger first n false (past ++ [.took ⟨n, reply⟩])
  | delivered {n : Nat} {past : List Deed} (h : Ledger first n true past) (reply : Reply)
      (body : Text) :
      Ledger first n false (past ++ [.took ⟨n, reply⟩] ++ [.did (.deliver n body)])
  | failed {n : Nat} {past : List Deed} (h : Ledger first n true past) (reply : Reply)
      (text : Text) :
      Ledger first n false (past ++ [.took ⟨n, reply⟩] ++ [.did (.failed n text)])

namespace Ledger

variable {first n : Nat} {flies : Bool} {past : List Deed}

theorem generation_eq (h : Ledger first n flies past) :
    n = first + (Deed.issued past).length + (Deed.aborted past).length := by
  induction h with
  | start => rfl
  | obeyed _ _ ih | cleared _ ih | ignored _ _ _ ih | completed _ _ ih | delivered _ _ _ ih
  | failed _ _ _ ih =>
    simpa [issued?, aborted?] using ih
  | issued _ _ ih | aborted _ ih =>
    simp [issued?, aborted?]
    omega

/-- No generation is used before it is reached. -/
theorem le_of_mem (h : Ledger first n flies past) {generation : Nat}
    (hmem : generation ∈ Deed.issued past ∨ generation ∈ Deed.aborted past) : generation ≤ n := by
  induction h with
  | start => simp at hmem
  | obeyed _ _ ih | cleared _ ih | ignored _ _ _ ih | completed _ _ ih | delivered _ _ _ ih
  | failed _ _ _ ih =>
    exact ih (by simpa [issued?, aborted?] using hmem)
  | issued _ _ ih =>
    simp only [issued_append, aborted_append, List.mem_append] at hmem
    rcases hmem with (hearlier | hlast) | (hearlier | hlast)
    · exact Nat.le_succ_of_le (ih (.inl hearlier))
    · obtain rfl := List.mem_singleton.1 hlast
      exact Nat.le_refl _
    · exact Nat.le_succ_of_le (ih (.inr hearlier))
    · cases hlast
  | aborted _ ih =>
    simp only [issued_append, aborted_append, List.mem_append] at hmem
    rcases hmem with (hearlier | hlast) | (hearlier | hlast)
    · exact Nat.le_succ_of_le (ih (.inl hearlier))
    · cases hlast
    · exact Nat.le_succ_of_le (ih (.inr hearlier))
    · obtain rfl := List.mem_singleton.1 hlast
      exact Nat.le_succ _

/-- The outstanding request is the one in flight. -/
theorem isOutstanding_iff (h : Ledger first n flies past) (generation : Nat) :
    IsOutstanding past generation ↔ flies = true ∧ generation = n := by
  induction h with
  | start => simp [IsOutstanding]
  | obeyed _ _ ih => rw [isOutstanding_concat_obeyed, ih]
  | cleared _ ih => rw [isOutstanding_concat_did rfl rfl, ih]
  | ignored _ response hstale ih =>
    rw [isOutstanding_concat_took, ih]
    constructor
    · exact And.left
    · rintro ⟨hflies, rfl⟩
      exact ⟨⟨hflies, rfl⟩, hstale hflies⟩
  | @issued n past h params ih =>
    rw [isOutstanding_concat_fetch]
    constructor
    · rintro ⟨hissued | rfl, hcompleted, haborted⟩
      · exact absurd (ih.1 ⟨hissued, hcompleted, haborted⟩).1 (by decide)
      · exact ⟨rfl, rfl⟩
    · -- The generation is new, so that nothing has been said of it.
      rintro ⟨-, rfl⟩
      have hnew : ¬ (n + 1 ∈ Deed.issued past ∨ n + 1 ∈ Deed.aborted past) := by
        intro hmem
        have := h.le_of_mem hmem
        omega
      refine ⟨.inr rfl, ?_, ?_⟩
      · intro hcompleted
        exact hnew (.inl hcompleted.mem_issued)
      · intro haborted
        exact hnew (.inr haborted)
  | aborted _ ih =>
    rw [isOutstanding_concat_abort, ih]
    grind
  | completed _ _ ih =>
    rw [isOutstanding_concat_took, ih]
    grind
  | delivered _ _ _ ih | failed _ _ _ ih =>
    rw [isOutstanding_concat_did rfl rfl, isOutstanding_concat_took, ih]
    grind

theorem isOutstanding (h : Ledger first n true past) : IsOutstanding past n :=
  (h.isOutstanding_iff n).2 ⟨rfl, rfl⟩

theorem pairwise_issued (h : Ledger first n flies past) : (Deed.issued past).Pairwise (· < ·) := by
  induction h with
  | start => exact .nil
  | obeyed _ _ ih | cleared _ ih | ignored _ _ _ ih | completed _ _ ih | delivered _ _ _ ih
  | failed _ _ _ ih | aborted _ ih =>
    simpa [issued?] using ih
  | issued h _ ih =>
    rw [issued_append, List.pairwise_append]
    refine ⟨ih, List.pairwise_singleton _ _, ?_⟩
    intro a ha b hb
    obtain rfl := List.mem_singleton.1 hb
    have := h.le_of_mem (.inl ha)
    omega

/-- What is aborted is in flight at that moment. -/
theorem isOutstanding_of_abort (h : Ledger first n flies past) {before : List Deed}
    {generation : Nat} (hbefore : before ++ [.did (.abort generation)] <+: past) :
    IsOutstanding before generation := by
  induction h with
  | start => simp at hbefore
  | obeyed _ _ ih | cleared _ ih | ignored _ _ _ ih | completed _ _ ih | issued _ _ ih =>
    rcases prefix_concat.1 hbefore with ⟨-, hlast⟩ | hearlier
    · cases hlast
    · exact ih hearlier
  | aborted h ih =>
    rcases prefix_concat.1 hbefore with ⟨rfl, hlast⟩ | hearlier
    · cases hlast
      exact h.isOutstanding
    · exact ih hearlier
  | delivered _ _ _ ih | failed _ _ _ ih =>
    rcases prefix_concat.1 hbefore with ⟨-, hlast⟩ | hearlier
    · cases hlast
    · rcases prefix_concat.1 hearlier with ⟨-, hlast⟩ | hearlier
      · cases hlast
      · exact ih hearlier

/-- What is made known follows at once on a reply to the request in flight. -/
theorem exists_of_report (h : Ledger first n flies past) {before : List Deed} {d : Deed}
    {generation : Nat} (hbefore : before ++ [d] <+: past)
    (hreport : d.reported? = some generation) :
    ∃ earlier reply, before = earlier ++ [.took ⟨generation, reply⟩] ∧
      IsOutstanding earlier generation := by
  induction h with
  | start => simp at hbefore
  | obeyed _ _ ih | cleared _ ih | ignored _ _ _ ih | completed _ _ ih | issued _ _ ih
  | aborted _ ih =>
    rcases prefix_concat.1 hbefore with ⟨-, rfl⟩ | hearlier
    · cases hreport
    · exact ih hearlier
  | @delivered n past h reply _ ih | @failed n past h reply _ ih =>
    rcases prefix_concat.1 hbefore with ⟨rfl, rfl⟩ | hearlier
    · obtain rfl : n = generation := Option.some.inj hreport
      exact ⟨past, reply, rfl, h.isOutstanding⟩
    · rcases prefix_concat.1 hearlier with ⟨-, rfl⟩ | hearlier
      · cases hreport
      · exact ih hearlier

/-- What is made known is made known of completed requests. -/
theorem isCompleted_of_mem_reported (h : Ledger first n flies past) {generation : Nat}
    (hmem : generation ∈ Deed.reported past) : IsCompleted past generation := by
  obtain ⟨before, d, hbefore, hreport⟩ := exists_before hmem
  obtain ⟨earlier, reply, rfl, hissued, -, haborted⟩ := h.exists_of_report hbefore hreport
  exact ⟨earlier, reply, (List.prefix_append _ _).trans hbefore, hissued, haborted⟩

theorem pairwise_reported (h : Ledger first n flies past) :
    (Deed.reported past).Pairwise (· < ·) := by
  induction h with
  | start => exact .nil
  | obeyed _ _ ih | cleared _ ih | ignored _ _ _ ih | completed _ _ ih | issued _ _ ih
  | aborted _ ih =>
    simpa [reported?] using ih
  | @delivered n past h _ _ ih | @failed n past h _ _ ih =>
    have hlast : ∀ a ∈ Deed.reported past, a < n := by
      intro a ha
      have hcompleted := h.isCompleted_of_mem_reported ha
      have hle := h.le_of_mem (.inl hcompleted.mem_issued)
      have hne : a ≠ n := by
        rintro rfl
        exact h.isOutstanding.2.1 hcompleted
      omega
    simp only [reported_append, List.append_assoc]
    rw [List.pairwise_append]
    refine ⟨ih, List.pairwise_singleton _ _, ?_⟩
    intro a ha b hb
    obtain rfl := List.mem_singleton.1 hb
    exact hlast a ha

theorem nodup_aborted (h : Ledger first n flies past) : (Deed.aborted past).Nodup := by
  induction h with
  | start => exact .nil
  | obeyed _ _ ih | cleared _ ih | ignored _ _ _ ih | completed _ _ ih | issued _ _ ih
  | delivered _ _ _ ih | failed _ _ _ ih =>
    simpa [aborted?] using ih
  | aborted h ih =>
    rw [aborted_append, List.nodup_append]
    refine ⟨ih, List.pairwise_singleton _ _, ?_⟩
    intro a ha b hb
    obtain rfl := List.mem_singleton.1 hb
    rintro rfl
    exact h.isOutstanding.2.2 ha

/-- An aborted request was issued and does not complete, neither before it was aborted nor
afterwards. -/
theorem of_mem_aborted (h : Ledger first n flies past) {generation : Nat}
    (hmem : generation ∈ Deed.aborted past) :
    generation ∈ Deed.issued past ∧ ¬ IsCompleted past generation := by
  obtain ⟨before, d, hbefore, habort⟩ := exists_before hmem
  obtain rfl : d = .did (.abort generation) := eq_of_aborted? habort
  obtain ⟨hissued, hopen, -⟩ := h.isOutstanding_of_abort hbefore
  constructor
  · obtain ⟨rest, rfl⟩ := hbefore
    simp [hissued]
  · rintro ⟨earlier, reply, hearlier, hissued', haborted⟩
    -- The reply was taken up either before the request was aborted or after that.
    rcases List.prefix_or_prefix_of_prefix hbefore hearlier with hfirst | hfirst
    · rcases prefix_concat.1 hfirst with ⟨-, hlast⟩ | ⟨rest, rfl⟩
      · cases hlast
      · simp [aborted?] at haborted
    · rcases prefix_concat.1 hfirst with ⟨-, hlast⟩ | hfirst
      · cases hlast
      · exact hopen ⟨earlier, reply, hfirst, hissued', haborted⟩

end Ledger

/-- Each request ends at most once, and no more than one is in flight. -/
structure Deed.InOrder (past : List Deed) : Prop where
  issued_increasing : (issued past).Pairwise (· < ·)
  one_class : ∀ g ∈ issued past,
    IsOutstanding past g ∧ ¬ IsCompleted past g ∧ g ∉ aborted past ∨
    ¬ IsOutstanding past g ∧ IsCompleted past g ∧ g ∉ aborted past ∨
    ¬ IsOutstanding past g ∧ ¬ IsCompleted past g ∧ g ∈ aborted past
  one_outstanding : ∀ g g', IsOutstanding past g → IsOutstanding past g' → g = g'
  reported_increasing : (reported past).Pairwise (· < ·)
  /-- Only an issued request is reported on, and none that was aborted earlier. -/
  reported_open : ∀ before d g, before ++ [d] <+: past → d.reported? = some g →
    g ∈ issued before ∧ g ∉ aborted before
  aborted_outstanding : ∀ before g, before ++ [.did (.abort g)] <+: past → IsOutstanding before g
  aborted_once : (aborted past).Nodup

theorem Ledger.inOrder {first n : Nat} {flies : Bool} {past : List Deed}
    (h : Ledger first n flies past) : InOrder past where
  issued_increasing := h.pairwise_issued
  one_class := by
    intro g hissued
    by_cases haborted : g ∈ Deed.aborted past
    · exact .inr (.inr ⟨fun hopen => hopen.2.2 haborted, (h.of_mem_aborted haborted).2, haborted⟩)
    by_cases hcompleted : IsCompleted past g
    · exact .inr (.inl ⟨fun hopen => hopen.2.1 hcompleted, hcompleted, haborted⟩)
    · exact .inl ⟨⟨hissued, hcompleted, haborted⟩, hcompleted, haborted⟩
  one_outstanding := by
    intro g g' hg hg'
    obtain ⟨-, rfl⟩ := (h.isOutstanding_iff g).1 hg
    obtain ⟨-, rfl⟩ := (h.isOutstanding_iff g').1 hg'
    rfl
  reported_increasing := h.pairwise_reported
  reported_open := by
    intro before d g hbefore hreport
    obtain ⟨earlier, reply, rfl, hissued, -, haborted⟩ := h.exists_of_report hbefore hreport
    exact ⟨by simp [hissued], by simpa [aborted?] using haborted⟩
  aborted_outstanding := fun _ _ hbefore => h.isOutstanding_of_abort hbefore
  aborted_once := h.nodup_aborted

end MapQuery
