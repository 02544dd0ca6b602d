import MapQuery.Request.Pipeline

/-!
# Installing again

A pipeline into which nothing but compiled queries and their time windows was ever installed has no
memory: the next query makes the same of it as of the empty one.
-/

set_option autoImplicit false

namespace MapQuery.Pipeline

open Modifier (filterId timeId)

/-- Nothing but a compiled query and its time window was installed. -/
inductive IsInstalled (p : Pipeline) : Prop
  | empty (h : p.modifiers = [])
  | query (m : Modifier) (h : p.modifiers = [m]) (hm : m.id = filterId)
  | window (m n : Modifier) (h : p.modifiers = [m, n]) (hm : m.id = filterId) (hn : n.id = timeId)

theorem eq_of_modifiers {p p' : Pipeline} (h : p.modifiers = p'.modifiers) : p = p' := by
  cases p
  cases p'
  simpa using h

theorem filterId_ne_timeId : filterId ≠ timeId := by decide

theorem put_of_eq {m n : Modifier} (h : n.id = m.id) (rest : List Modifier) :
    put m (n :: rest) = m :: rest := by simp [put, h]

theorem put_of_ne {m n : Modifier} (h : n.id ≠ m.id) (rest : List Modifier) :
    put m (n :: rest) = n :: put m rest := by simp [put, h]

variable (g : Grammar) (params : List (Text × Text)) (filter : Option Text)

/-- The query takes the first place; a window that was there stays for the moment. -/
theorem modifiers_installQuery {p : Pipeline} (h : p.IsInstalled) :
    (p.installQuery g params filter).modifiers = [.ofQuery g params filter] ∨
      ∃ n, n.id = timeId ∧
        (p.installQuery g params filter).modifiers = [.ofQuery g params filter, n] := by
  cases h with
  | empty h =>
    left
    show put _ p.modifiers = _
    rw [h]
    rfl
  | query m h hm =>
    left
    show put _ p.modifiers = _
    rw [h, put_of_eq hm]
  | window m n h hm hn =>
    refine .inr ⟨n, hn, ?_⟩
    show put _ p.modifiers = _
    rw [h, put_of_eq hm]

theorem modifiers_install_none {p : Pipeline} (h : p.IsInstalled) :
    (p.install g params filter none).modifiers = [.ofQuery g params filter] := by
  show (p.installQuery g params filter).modifiers.filter _ = _
  have hid : (Modifier.ofQuery g params filter).id ≠ timeId := filterId_ne_timeId
  rcases modifiers_installQuery g params filter h with hm | ⟨n, hn, hm⟩
  · simp [hm, hid]
  · simp [hm, hid, hn]

theorem modifiers_install_some (part : TimePart) {p : Pipeline} (h : p.IsInstalled) :
    (p.install g params filter (some part)).modifiers =
      [.ofQuery g params filter, .ofTime g part] := by
  show put (.ofTime g part) (p.installQuery g params filter).modifiers = _
  have hid : (Modifier.ofQuery g params filter).id ≠ (Modifier.ofTime g part).id :=
    filterId_ne_timeId
  rcases modifiers_installQuery g params filter h with hm | ⟨n, hn, hm⟩
  · rw [hm, put_of_ne hid]
    rfl
  · have hn' : n.id = (Modifier.ofTime g part).id := hn
    rw [hm, put_of_ne hid, put_of_eq hn']

theorem install_eq_empty_install (time : Option TimePart) {p : Pipeline} (h : p.IsInstalled) :
    p.install g params filter time = empty.install g params filter time := by
  apply eq_of_modifiers
  cases time with
  | none =>
    rw [modifiers_install_none g params filter h,
      modifiers_install_none g params filter (.empty rfl)]
  | some part =>
    rw [modifiers_install_some g params filter part h,
      modifiers_install_some g params filter part (.empty rfl)]

theorem isInstalled_install (time : Option TimePart) {p : Pipeline} (h : p.IsInstalled) :
    (p.install g params filter time).IsInstalled := by
  cases time with
  | none => exact .query _ (modifiers_install_none g params filter h) rfl
  | some part => exact .window _ _ (modifiers_install_some g params filter part h) rfl rfl

end MapQuery.Pipeline
