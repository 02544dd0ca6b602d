import MapQuery.Workspace.Resolution

/-!
# The first of every key

Keeping the first item of every key, what comes later under a key does not matter. So a list may be
put in the place of another inside a longer one if the two have the same first items.
-/

set_option autoImplicit false

namespace MapQuery

variable {α β : Type} {key : α → Text}

theorem distinctBy_sublist (l : List α) : (distinctBy key l).Sublist l := by
  induction l with
  | nil => exact .slnil
  | cons a rest ih => exact (List.filter_sublist.trans ih).cons_cons a

theorem mem_of_mem_distinctBy {l : List α} {a : α} (h : a ∈ distinctBy key l) : a ∈ l :=
  (distinctBy_sublist l).subset h

/-- Under every key the first item is the one that is kept. -/
theorem find?_distinctBy (l : List α) (k : Text) :
    (distinctBy key l).find? (key · == k) = l.find? (key · == k) := by
  induction l with
  | nil => rfl
  | cons a rest ih =>
    by_cases hk : key a = k
    · simp [distinctBy, hk]
    · have hfilter : ((distinctBy key rest).filter fun b => key b != key a).find? (key · == k) =
          (distinctBy key rest).find? (key · == k) := by
        rw [List.find?_filter]
        congr 1
        funext b
        by_cases hb : key b = k
        · simp [hb, Ne.symm hk]
        · simp [hb]
      simp [distinctBy, hk, hfilter, ih]

theorem map_distinctBy_nodup (l : List α) : ((distinctBy key l).map key).Nodup := by
  induction l with
  | nil => exact .nil
  | cons a rest ih =>
    rw [distinctBy, List.map_cons, List.nodup_cons]
    refine ⟨?_, (List.filter_sublist.map key).nodup ih⟩
    intro h
    obtain ⟨b, hb, hkey⟩ := List.mem_map.1 h
    simpa [hkey] using (List.mem_filter.1 hb).2

theorem mem_map_distinctBy {l : List α} {k : Text} :
    k ∈ (distinctBy key l).map key ↔ k ∈ l.map key := by
  have hfind (m : List α) : k ∈ m.map key ↔ (m.find? (key · == k)).isSome = true := by
    simp [List.find?_isSome]
  rw [hfind, hfind, find?_distinctBy]

/-- An item is kept exactly if it is the first of its key. -/
theorem mem_distinctBy_iff {l : List α} {a : α} :
    a ∈ distinctBy key l ↔ l.find? (key · == key a) = some a := by
  rw [← find?_distinctBy]
  constructor
  · intro ha
    have hnodup := @map_distinctBy_nodup _ key l
    generalize distinctBy key l = kept at ha hnodup
    induction kept with
    | nil => cases ha
    | cons b rest ih =>
      rw [List.map_cons, List.nodup_cons] at hnodup
      rcases List.mem_cons.1 ha with rfl | ha
      · simp
      · have hne : key b ≠ key a := by
          intro hkey
          exact hnodup.1 (hkey ▸ List.mem_map_of_mem ha)
        simpa [hne] using ih ha hnodup.2
  · exact List.mem_of_find?_eq_some

/-- Where no two items share a key, every item is kept. -/
theorem mem_distinctBy_of_injective {l : List α}
    (hkey : ∀ a ∈ l, ∀ b ∈ l, key a = key b → a = b) {a : α} : a ∈ distinctBy key l ↔ a ∈ l := by
  constructor
  · exact mem_of_mem_distinctBy
  · intro ha
    obtain ⟨b, hb, hid⟩ := List.mem_map.1 (mem_map_distinctBy.2 (List.mem_map_of_mem ha))
    rw [← hkey b (mem_of_mem_distinctBy hb) a ha hid]
    exact hb

theorem map_distinctBy (f : β → α) (l : List β) :
    (distinctBy (fun b => key (f b)) l).map f = distinctBy key (l.map f) := by
  induction l with
  | nil => rfl
  | cons b rest ih =>
    rw [List.map_cons, distinctBy, distinctBy, List.map_cons, ← ih, List.filter_map]
    rfl

/-- Of the second list those are kept whose key the first list does not have. -/
theorem distinctBy_append (l m : List α) :
    distinctBy key (l ++ m) =
      distinctBy key l ++ (distinctBy key m).filter fun b => !(l.map key).contains (key b) := by
  induction l with
  | nil => exact (List.filter_eq_self.2 fun _ _ => rfl).symm
  | cons a rest ih =>
    simp only [List.cons_append, distinctBy, ih, List.filter_append, List.filter_filter,
      List.map_cons, List.contains_cons, Bool.not_or]
    rfl

theorem distinctBy_append_congr {l l' m m' : List α} (hl : distinctBy key l = distinctBy key l')
    (hm : distinctBy key m = distinctBy key m') :
    distinctBy key (l ++ m) = distinctBy key (l' ++ m') := by
  have hkeys : ∀ k, (l.map key).contains k = (l'.map key).contains k := by
    intro k
    rw [Bool.eq_iff_iff, List.contains_iff_mem, List.contains_iff_mem, ← mem_map_distinctBy, hl,
      mem_map_distinctBy]
  simp only [distinctBy_append, hl, hm, hkeys]

theorem distinctBy_flatMap_congr {f g : β → List α} {l : List β}
    (h : ∀ b ∈ l, distinctBy key (f b) = distinctBy key (g b)) :
    distinctBy key (l.flatMap f) = distinctBy key (l.flatMap g) := by
  induction l with
  | nil => rfl
  | cons b rest ih =>
    rw [List.flatMap_cons, List.flatMap_cons]
    apply distinctBy_append_congr (h b List.mem_cons_self)
    exact ih fun x hx => h x (List.mem_cons_of_mem b hx)

theorem flatMap_filter_eq (p : β → Bool) (give : β → List α) (l : List β) :
    (l.filter p).flatMap give = l.flatMap fun b => if p b then give b else [] := by
  induction l with
  | nil => rfl
  | cons b rest ih =>
    rw [List.filter_cons, List.flatMap_cons, ← ih]
    cases p b <;> rfl

/-- A list again after itself adds nothing. -/
theorem distinctBy_append_self (l : List α) : distinctBy key (l ++ l) = distinctBy key l := by
  rw [distinctBy_append, List.filter_eq_nil_iff.2, List.append_nil]
  intro b hb
  have := mem_map_distinctBy.1 (List.mem_map_of_mem (f := key) hb)
  simpa using this

/-- Nor does any number of repetitions. -/
theorem distinctBy_flatMap_const {m : List β} (h : m ≠ []) (l : List α) :
    distinctBy key (m.flatMap fun _ => l) = distinctBy key l := by
  induction m with
  | nil => exact absurd rfl h
  | cons b rest ih =>
    rw [List.flatMap_cons]
    cases rest with
    | nil => rw [List.flatMap_nil, List.append_nil]
    | cons b' rest' =>
      rw [distinctBy_append_congr rfl (ih (List.cons_ne_nil b' rest')), distinctBy_append_self]

end MapQuery
