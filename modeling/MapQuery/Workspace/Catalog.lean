import MapQuery.Text.Basic

/-!
# Catalogs

A catalog holds items of one kind by their ids, in the order of the ids.
-/

set_option autoImplicit false

namespace MapQuery

/-- Items that have an id. -/
class Keyed (α : Type) where
  key : α → Text

/-- Items in strictly increasing order of their ids. -/
structure Catalog (α : Type) [Keyed α] where
  items : List α
  sorted : items.Pairwise fun a b => (Keyed.key a).before (Keyed.key b) = true

namespace Catalog

open Keyed (key)

variable {α : Type} [Keyed α]

def empty : Catalog α := ⟨[], .nil⟩

def find? (c : Catalog α) (id : Text) : Option α := c.items.find? fun a => key a == id

/-- Puts an item in its place among items in order, instead of an earlier one of the same id. -/
def insertInto (a : α) : List α → List α
  | [] => [a]
  | b :: rest =>
    if key b = key a then a :: rest
    else if (key a).before (key b) then a :: b :: rest
    else b :: insertInto a rest

theorem mem_insertInto {a x : α} {items : List α} (h : x ∈ insertInto a items) :
    x = a ∨ x ∈ items := by
  induction items with
  | nil => simpa [insertInto] using h
  | cons b rest ih =>
    simp only [insertInto] at h
    split at h
    · simp only [List.mem_cons] at h ⊢
      exact h.imp_right .inr
    · split at h
      · simpa using h
      · simp only [List.mem_cons] at h ⊢
        rcases h with h | h
        · exact .inr (.inl h)
        · exact (ih h).imp_right .inr

theorem sorted_insertInto (a : α) {items : List α}
    (h : items.Pairwise fun a b => (key a).before (key b) = true) :
    (insertInto a items).Pairwise fun a b => (key a).before (key b) = true := by
  induction items with
  | nil => simp [insertInto]
  | cons b rest ih =>
    rw [List.pairwise_cons] at h
    simp only [insertInto]
    split
    · next hab => exact List.pairwise_cons.2 ⟨fun x hx => hab ▸ h.1 x hx, h.2⟩
    · next hne =>
      split
      · next hab =>
        refine List.pairwise_cons.2 ⟨fun x hx => ?_, List.pairwise_cons.2 h⟩
        rcases List.mem_cons.1 hx with rfl | hx
        · exact hab
        · exact Text.before_trans hab (h.1 x hx)
      · next hab =>
        refine List.pairwise_cons.2 ⟨fun x hx => ?_, ih h.2⟩
        rcases mem_insertInto hx with rfl | hx
        · exact Text.before_of_ne (Ne.symm hne) (by simpa using hab)
        · exact h.1 x hx

/-- Adds an item, instead of an earlier one of the same id. -/
def insert (a : α) (c : Catalog α) : Catalog α :=
  ⟨insertInto a c.items, sorted_insertInto a c.sorted⟩

def erase (id : Text) (c : Catalog α) : Catalog α :=
  ⟨c.items.filter fun a => key a != id, c.sorted.filter _⟩

/-- Changes the item with an id; what changes is not its id. -/
def update (id : Text) (f : α → α) (h : ∀ a, key (f a) = key a) (c : Catalog α) : Catalog α :=
  ⟨c.items.map fun a => if key a = id then f a else a, by
    have hkey : ∀ a, key (if key a = id then f a else a) = key a := fun a => by
      split
      · exact h a
      · rfl
    rw [List.pairwise_map]
    simpa only [hkey] using c.sorted⟩

end Catalog
end MapQuery
