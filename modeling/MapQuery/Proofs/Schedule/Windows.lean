import Mathlib.Data.List.Basic

/-!
# Logs of a debounce window

A debounce window is started anew by every change. When it runs out it is either held, and armed
again, or done with. What is known of a log of such events is that a window runs out no earlier than
the event before says; from that alone it follows that windows run out at some distance from
whatever was before, and that a burst of changes is followed by one end of the window.
-/

set_option autoImplicit false

namespace MapQuery

/-- An event in the life of a debounce window. -/
inductive Beat where
  | changed
  /-- The window runs out, and is armed again if it is held. -/
  | expired (isHeld : Bool)
  deriving DecidableEq

namespace Beat

def isExpiry : Beat → Bool
  | .changed => false
  | .expired _ => true

/-- When the window runs out after an event, if there is one then. -/
def due (debounce now : Nat) : Beat → Option Nat
  | .changed | .expired true => some (now + debounce)
  | .expired false => none

theorem eq_of_mem_due {debounce now deadline : Nat} {b : Beat}
    (h : b.due debounce now = some deadline) : deadline = now + debounce := by
  cases b with
  | changed => exact (Option.some.inj h).symm
  | expired isHeld =>
    cases isHeld with
    | true => exact (Option.some.inj h).symm
    | false => cases h

theorem due_of_ne {debounce : Nat} {b : Beat} (h : b ≠ .expired false) (now : Nat) :
    b.due debounce now = some (now + debounce) := by
  cases b with
  | changed => rfl
  | expired isHeld =>
    cases isHeld with
    | true => rfl
    | false => exact absurd rfl h

end Beat

/-- Events with their times, in order. -/
abbrev BeatLog := List (Nat × Beat)

namespace BeatLog

/-- The times of the changes. -/
def changes (log : BeatLog) : List Nat := (log.filter (·.2 = .changed)).map Prod.fst

/-- The events in which the window runs out. -/
def expiries (log : BeatLog) : BeatLog := log.filter (·.2.isExpiry)

/-- When the window runs out after the events, given when it did so before. -/
def dueAfter (debounce : Nat) (due : Option Nat) (log : BeatLog) : Option Nat :=
  log.foldl (fun _ e => e.2.due debounce e.1) due

@[simp] theorem changes_expired (now : Nat) (isHeld : Bool) (log : BeatLog) :
    changes ((now, .expired isHeld) :: log) = log.changes := rfl

@[simp] theorem dueAfter_nil (debounce : Nat) (due : Option Nat) :
    dueAfter debounce due [] = due := rfl

theorem dueAfter_append (debounce : Nat) (due : Option Nat) (log later : BeatLog) :
    dueAfter debounce due (log ++ later) = dueAfter debounce (dueAfter debounce due log) later :=
  List.foldl_append

theorem mem_of_mem_changes {log : BeatLog} {time : Nat} (h : time ∈ log.changes) :
    (time, .changed) ∈ log := by
  obtain ⟨⟨time', b⟩, he, rfl⟩ := List.mem_map.1 h
  obtain ⟨hmem, hchanged⟩ := List.mem_filter.1 he
  obtain rfl : b = .changed := by simpa using hchanged
  exact hmem

theorem count_expired_le (log : BeatLog) (isHeld : Bool) :
    (log.map Prod.snd).count (.expired isHeld) ≤ log.expiries.length := by
  rw [List.count, List.countP_map, expiries, ← List.countP_eq_length_filter]
  apply List.countP_mono_left
  intro e _ he
  have hexpired : e.2 = .expired isHeld := by simpa using he
  rw [hexpired]
  rfl

/-- Time does not go back, and the window runs out only once it is due. -/
inductive IsTimed (debounce : Nat) : Option Nat → BeatLog → Prop
  | nil (due : Option Nat) : IsTimed debounce due []
  | cons {due : Option Nat} {now : Nat} {b : Beat} {log : BeatLog}
      (hdue : b.isExpiry = true → due.any (· ≤ now) = true) (hlater : ∀ e ∈ log, now ≤ e.1)
      (hrest : IsTimed debounce (b.due debounce now) log) :
      IsTimed debounce due ((now, b) :: log)

variable {debounce : Nat} {due : Option Nat} {log : BeatLog}

/-- The window runs out no earlier than it was to do at first and a change could have it do. -/
theorem IsTimed.le_of_expiry (h : IsTimed debounce due log) {first : Nat}
    (hdue : ∀ deadline, due = some deadline → first ≤ deadline)
    (hlater : ∀ e ∈ log, first ≤ e.1 + debounce) {e : Nat × Beat} (he : e ∈ log)
    (hexpiry : e.2.isExpiry = true) : first ≤ e.1 := by
  induction h with
  | nil => cases he
  | @cons due now b log hnow _ _ ih =>
    rcases List.mem_cons.1 he with rfl | he
    · obtain ⟨deadline, rfl, hpast⟩ := (Option.any_eq_true _ _).1 (hnow hexpiry)
      exact Nat.le_trans (hdue deadline rfl) (of_decide_eq_true hpast)
    · refine ih ?_ (fun e he => hlater e (List.mem_cons_of_mem _ he)) he
      intro deadline hdeadline
      rw [Beat.eq_of_mem_due hdeadline]
      exact hlater (now, b) List.mem_cons_self

/-- The window runs out no earlier than a debounce after whatever was before. -/
theorem IsTimed.pairwise (h : IsTimed debounce due log) :
    log.Pairwise fun e f => f.2.isExpiry = true → e.1 + debounce ≤ f.1 := by
  induction h with
  | nil => exact .nil
  | @cons due now b log _ hlater hrest ih =>
    refine List.pairwise_cons.2 ⟨fun f hf hexpiry => ?_, ih⟩
    refine hrest.le_of_expiry ?_ ?_ hf hexpiry
    · intro deadline hdeadline
      exact Nat.le_of_eq (Beat.eq_of_mem_due hdeadline).symm
    · intro e he
      exact Nat.add_le_add_right (hlater e he) debounce

/-- Without a window and without a change there is nothing. -/
theorem IsTimed.eq_nil (h : IsTimed debounce none log) (hchanges : log.changes = []) :
    log = [] := by
  cases h with
  | nil => rfl
  | @cons _ now b log hnow =>
    cases b with
    | changed => cases hchanges
    | expired => cases hnow rfl

/-- The rest of a burst, after a change at some time. While changes follow each other within a
debounce, each finds the window armed; the first end of the window is therefore after the last
change, and it is the only one. -/
theorem IsTimed.expiries_of_changed {last stop : Nat}
    (h : IsTimed debounce (some (last + debounce)) log) (hlater : ∀ e ∈ log, last ≤ e.1)
    (hgaps : (last :: log.changes).IsChain fun a b => b < a + debounce)
    (hstop : ∀ time ∈ last :: log.changes, time + debounce ≤ stop)
    (hheld : ∀ e ∈ log, e.2 ≠ .expired true)
    (hdone : (dueAfter debounce (some (last + debounce)) log).any (· ≤ stop) = false) :
    ∃ time, log.expiries = [(time, .expired false)] ∧
      ∀ change ∈ last :: log.changes, change + debounce ≤ time := by
  induction log generalizing last with
  | nil =>
    -- The window is still armed at the end, though it is due.
    have hpast := hstop last List.mem_cons_self
    simp only [dueAfter_nil, Option.any_some, decide_eq_false_iff_not] at hdone
    exact absurd hpast hdone
  | cons e log ih =>
    obtain ⟨now, b⟩ := e
    cases h with
    | cons hnow hlog hrest =>
    cases b with
    | changed =>
      obtain ⟨time, hexpiries, htime⟩ := ih hrest hlog (List.isChain_cons_cons.1 hgaps).2
        (fun x hx => hstop x (List.mem_cons_of_mem _ hx))
        (fun e he => hheld e (List.mem_cons_of_mem _ he)) hdone
      refine ⟨time, hexpiries, ?_⟩
      intro change hchange
      rcases List.mem_cons.1 hchange with rfl | hchange
      · have hlast : change ≤ now := hlater _ List.mem_cons_self
        have hafter := htime now List.mem_cons_self
        omega
      · exact htime change hchange
    | expired isHeld =>
      obtain rfl : isHeld = false := by
        cases isHeld with
        | false => rfl
        | true => exact absurd rfl (hheld _ List.mem_cons_self)
      have hpast : last + debounce ≤ now := by simpa using hnow rfl
      -- A later change would come too late for the burst.
      have hnone : changes log = [] := by
        cases hchanges : changes log with
        | nil => rfl
        | cons change rest =>
          rw [changes_expired, hchanges] at hgaps
          have hgap := (List.isChain_cons_cons.1 hgaps).1
          have hnext := hlog _ (mem_of_mem_changes (hchanges ▸ List.mem_cons_self))
          simp only at hnext
          omega
      obtain rfl := hrest.eq_nil hnone
      refine ⟨now, rfl, ?_⟩
      intro change hchange
      obtain rfl := List.mem_singleton.1 hchange
      exact hpast

/-- Changes that follow each other within a debounce, then a debounce without changes. -/
structure IsBurst (debounce stop : Nat) (log : BeatLog) : Prop where
  first : ∃ time, log.head? = some (time, .changed)
  gaps : log.changes.IsChain fun a b => b < a + debounce
  quiet : ∀ time ∈ log.changes, time + debounce ≤ stop

/-- In a burst in which the window is never held it runs out once, after all changes. -/
theorem IsTimed.expiries_of_burst {stop : Nat} (h : IsTimed debounce due log)
    (hburst : IsBurst debounce stop log) (hheld : ∀ e ∈ log, e.2 ≠ .expired true)
    (hdone : (dueAfter debounce due log).any (· ≤ stop) = false) :
    ∃ time, log.expiries = [(time, .expired false)] ∧
      ∀ change ∈ log.changes, change + debounce ≤ time := by
  obtain ⟨first, hfirst⟩ := hburst.first
  cases h with
  | nil => cases hfirst
  | cons _ hlater hrest =>
    obtain ⟨rfl, rfl⟩ := Prod.mk.inj (Option.some.inj hfirst)
    exact hrest.expiries_of_changed hlater hburst.gaps hburst.quiet
      (fun e he => hheld e (List.mem_cons_of_mem _ he)) hdone

/-- After a change the window stays armed until it runs out without being held. -/
theorem dueAfter_of_changed (before : BeatLog) (time : Nat) {after : BeatLog}
    (hafter : ∀ e ∈ after, e.2 ≠ .expired false) :
    ∃ e ∈ (time, .changed) :: after,
      dueAfter debounce due (before ++ (time, .changed) :: after) = some (e.1 + debounce) := by
  -- Only the last event counts.
  rcases List.eq_nil_or_concat after with rfl | ⟨rest, e, rfl⟩
  · exact ⟨_, List.mem_singleton_self _, by rw [dueAfter_append]; rfl⟩
  · have harmed : e.2.due debounce e.1 = some (e.1 + debounce) :=
      Beat.due_of_ne (hafter e (by simp)) e.1
    refine ⟨e, by simp, ?_⟩
    rw [List.concat_eq_append, ← List.cons_append, ← List.append_assoc, dueAfter_append]
    exact harmed

end BeatLog
end MapQuery
