import MapQuery.Workspace.Catalog

/-!
# Looking up in catalogs

An operation on one id leaves what is found under the others, and it leaves the whole catalog where
it has nothing to change.
-/

set_option autoImplicit false

namespace MapQuery.Catalog

open Keyed (key)

variable {α : Type} [Keyed α]

theorem eq_of_items {c d : Catalog α} (h : c.items = d.items) : c = d := by
  cases c
  cases d
  simpa using h

/-- Ids are strictly increasing, so no two items share one. -/
theorem eq_of_key_eq {c : Catalog α} {a b : α} (ha : a ∈ c.items) (hb : b ∈ c.items)
    (h : key a = key b) : a = b := by
  have hlt := c.sorted
  generalize c.items = items at ha hb hlt
  induction items with
  | nil => simp at ha
  | cons x rest ih =>
    rw [List.pairwise_cons] at hlt
    have irrefl : ∀ y ∈ rest, key x ≠ key y := by
      intro y hy hxy
      have := hlt.1 y hy
      rw [hxy, Text.not_before_self] at this
      exact absurd this (by decide)
    rcases List.mem_cons.1 ha with hax | ha'
    · rcases List.mem_cons.1 hb with hbx | hb'
      · exact hax.trans hbx.symm
      · exact absurd (hax ▸ h) (irrefl b hb')
    · rcases List.mem_cons.1 hb with hbx | hb'
      · exact absurd (hbx ▸ h.symm) (irrefl a ha')
      · exact ih ha' hb' hlt.2

theorem mem_of_find? {c : Catalog α} {id : Text} {a : α} (h : c.find? id = some a) :
    a ∈ c.items ∧ key a = id :=
  ⟨List.mem_of_find?_eq_some h, by simpa using List.find?_some h⟩

theorem find?_of_mem {c : Catalog α} {a : α} (h : a ∈ c.items) : c.find? (key a) = some a := by
  cases hfind : c.find? (key a) with
  | none => simpa using List.find?_eq_none.1 hfind a h
  | some b =>
    obtain ⟨hb, hkey⟩ := mem_of_find? hfind
    rw [eq_of_key_eq hb h hkey]

theorem nodup_map_key (c : Catalog α) :
    (c.items.map (key : α → Text)).Nodup := by
  rw [List.nodup_iff_pairwise_ne, List.pairwise_map]
  refine c.sorted.imp fun {a b} hab hkey => ?_
  rw [hkey, Text.not_before_self] at hab
  cases hab

theorem find?_insert_of_ne (c : Catalog α) {id : Text} {a : α} (h : id ≠ key a) :
    (c.insert a).find? id = c.find? id := by
  show (insertInto a c.items).find? _ = c.items.find? _
  induction c.items with
  | nil => simp [insertInto, Ne.symm h]
  | cons b rest ih =>
    simp only [insertInto]
    split
    · next hba => simp [hba, Ne.symm h]
    · split
      · simp [Ne.symm h]
      · simp only [List.find?_cons, ih]

theorem find?_erase_of_ne (c : Catalog α) {id own : Text} (h : own ≠ id) :
    (c.erase id).find? own = c.find? own := by
  show (c.items.filter _).find? _ = c.items.find? _
  induction c.items with
  | nil => rfl
  | cons b rest ih =>
    by_cases hb : key b = id
    · simp [hb, Ne.symm h, ih]
    · simp [hb, List.find?_cons, ih]

theorem find?_update_of_ne (c : Catalog α) {id own : Text} (f : α → α)
    (hf : ∀ a, key (f a) = key a) (h : own ≠ id) :
    (c.update id f hf).find? own = c.find? own := by
  show (c.items.map _).find? _ = c.items.find? _
  induction c.items with
  | nil => rfl
  | cons b rest ih =>
    by_cases hb : key b = id
    · simp [hb, hf, Ne.symm h, ih]
    · simp [hb, List.find?_cons, ih]

theorem erase_of_find?_eq_none {c : Catalog α} {id : Text} (h : c.find? id = none) :
    c.erase id = c := by
  apply eq_of_items
  apply List.filter_eq_self.2
  intro a ha
  simpa using List.find?_eq_none.1 h a ha

theorem update_eq_self {c : Catalog α} {id : Text} {f : α → α} (hf : ∀ a, key (f a) = key a)
    (h : ∀ a, c.find? id = some a → f a = a) : c.update id f hf = c := by
  apply eq_of_items
  show c.items.map _ = c.items
  refine (List.map_congr_left fun a ha => ?_).trans (List.map_id c.items)
  show (if key a = id then f a else a) = a
  split
  · next hid =>
    cases hfind : c.find? id with
    | none =>
      have := List.find?_eq_none.1 hfind a ha
      simp [hid] at this
    | some b =>
      obtain ⟨hb, hkey⟩ := mem_of_find? hfind
      obtain rfl := eq_of_key_eq ha hb (hid.trans hkey.symm)
      exact h a hfind
  · rfl

theorem insertInto_of_before {a : α} {items : List α}
    (h : ∀ b ∈ items, (key b).before (key a) = true) : insertInto a items = items ++ [a] := by
  induction items with
  | nil => rfl
  | cons b rest ih =>
    have hba := h b List.mem_cons_self
    have hne : key b ≠ key a := by
      intro hkey
      rw [hkey, Text.not_before_self] at hba
      cases hba
    have hab : ¬ (key a).before (key b) = true := by
      intro hab
      have := Text.before_trans hba hab
      rw [Text.not_before_self] at this
      cases this
    rw [insertInto, if_neg hne, if_neg hab, ih fun x hx => h x (List.mem_cons_of_mem b hx)]
    rfl

/-- Items in order are collected as they are. -/
theorem foldl_insertInto {start items : List α}
    (h : (start ++ items).Pairwise fun a b => (key a).before (key b) = true) :
    items.foldl (fun acc a => insertInto a acc) start = start ++ items := by
  induction items generalizing start with
  | nil => exact (List.append_nil start).symm
  | cons a rest ih =>
    have hbefore : ∀ b ∈ start, (key b).before (key a) = true := fun b hb =>
      (List.pairwise_append.1 h).2.2 b hb a List.mem_cons_self
    rw [List.foldl_cons, insertInto_of_before hbefore, ih (by simpa using h), List.append_assoc]
    rfl

theorem mem_foldl_insertInto {x : α} {items start : List α}
    (h : x ∈ items.foldl (fun acc a => insertInto a acc) start) : x ∈ items ∨ x ∈ start := by
  induction items generalizing start with
  | nil => exact .inr h
  | cons a rest ih =>
    rcases ih h with h | h
    · exact .inl (List.mem_cons_of_mem a h)
    · rcases mem_insertInto h with rfl | h
      · exact .inl List.mem_cons_self
      · exact .inr h

theorem sorted_foldl_insertInto (items : List α) {start : List α}
    (h : start.Pairwise fun a b => (key a).before (key b) = true) :
    (items.foldl (fun acc a => insertInto a acc) start).Pairwise fun a b =>
      (key a).before (key b) = true := by
  induction items generalizing start with
  | nil => exact h
  | cons a rest ih => exact ih (sorted_insertInto a h)

theorem foldl_insert_items (c : Catalog α) :
    c.items.foldl (fun acc a => insert a acc) (empty : Catalog α) = c := by
  apply eq_of_items
  have hitems : ∀ (items : List α) (d : Catalog α),
      (items.foldl (fun acc a => insert a acc) d).items =
        items.foldl (fun acc a => insertInto a acc) d.items := by
    intro items
    induction items with
    | nil => exact fun _ => rfl
    | cons a rest ih => exact fun d => ih (insert a d)
  rw [hitems]
  exact @foldl_insertInto α _ [] c.items c.sorted

/-- The items that pass a test. -/
def restrict (p : α → Bool) (c : Catalog α) : Catalog α :=
  ⟨c.items.filter p, c.sorted.filter p⟩

/-- A look-up finds what it found, as far as it is kept and has not been left out. -/
theorem find?_restrict {c : Catalog α} {p keep : α → Bool} (id : Text)
    (h : ∀ a ∈ c.items, key a = id → keep a = true → p a = true) :
    ((c.restrict p).find? id).toList.filter keep = (c.find? id).toList.filter keep := by
  cases hold : c.find? id with
  | none =>
    have hnew : (c.restrict p).find? id = none := by
      refine List.find?_eq_none.2 fun a ha => ?_
      exact List.find?_eq_none.1 hold a (List.mem_filter.1 ha).1
    rw [hnew]
  | some a =>
    obtain ⟨ha, rfl⟩ := mem_of_find? hold
    cases hnew : (c.restrict p).find? (key a) with
    | some b =>
      obtain ⟨hb, hkey⟩ := mem_of_find? hnew
      rw [eq_of_key_eq (List.mem_filter.1 hb).1 ha hkey]
    | none =>
      cases hkeep : keep a with
      | false => simp [hkeep]
      | true =>
        have hmem : a ∈ (c.restrict p).items := List.mem_filter.2 ⟨ha, h a ha rfl hkeep⟩
        rw [find?_of_mem hmem] at hnew
        cases hnew

theorem filter_restrict {c : Catalog α} {p keep : α → Bool}
    (h : ∀ a ∈ c.items, keep a = true → p a = true) :
    (c.restrict p).items.filter keep = c.items.filter keep := by
  change (c.items.filter p).filter keep = _
  rw [List.filter_filter]
  apply List.filter_congr
  intro a ha
  cases hkeep : keep a with
  | false => rfl
  | true => rw [h a ha hkeep]; rfl

end MapQuery.Catalog
