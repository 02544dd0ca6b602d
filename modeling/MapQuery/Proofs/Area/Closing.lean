import MapQuery.Area.Shape
import Mathlib.Data.List.Forall2

/-!
# Closed rings

What it is for a ring to be closed, and for a shape to be closed ring by ring. Closing adds no
coordinates, so that a closed ring can be read where the stored one could.
-/

set_option autoImplicit false

namespace MapQuery

variable {κ : Type} [BEq κ]

/-- The second ring is the first one closed: its first position stands once more at the end exactly
where the first and the last one differ. -/
inductive Ring.Closes : Ring κ → Ring κ → Prop
  | empty : Closes [] []
  | closed {first last : Position κ} {r : Ring κ} : r.head? = some first →
      r.getLast? = some last → (first == last) = true → Closes r r
  | opened {first last : Position κ} {r : Ring κ} : r.head? = some first →
      r.getLast? = some last → (first == last) = false → Closes r (r ++ [first])

/-- Two shapes of one kind whose rings are the same in the same order, closed in the second. -/
inductive Shape.Closes : Shape κ → Shape κ → Prop
  | polygon {rings closed : Polygon κ} : List.Forall₂ Ring.Closes rings closed →
      Closes (.polygon rings) (.polygon closed)
  | multiPolygon {polygons closed : List (Polygon κ)} :
      List.Forall₂ (List.Forall₂ Ring.Closes) polygons closed →
      Closes (.multiPolygon polygons) (.multiPolygon closed)

/-- The shape with every ring closed. -/
def Shape.closed : Shape κ → Shape κ
  | .polygon rings => .polygon (rings.map closedRing)
  | .multiPolygon polygons => .multiPolygon (polygons.map (·.map closedRing))

theorem closes_closedRing (r : Ring κ) : Ring.Closes r (closedRing r) := by
  cases r with
  | nil => exact .empty
  | cons first rest =>
    have hlast := List.getLast?_eq_some_getLast (List.cons_ne_nil first rest)
    rw [closedRing, hlast]
    simp only [List.head?_cons]
    split
    · next h => exact .closed rfl hlast h
    · next h => exact .opened rfl hlast (Bool.eq_false_iff.2 h)

theorem mem_closedRing {p : Position κ} {r : Ring κ} : p ∈ closedRing r ↔ p ∈ r := by
  generalize hc : closedRing r = c
  have hcloses := closes_closedRing r
  rw [hc] at hcloses
  cases hcloses with
  | empty => rfl
  | closed => rfl
  | @opened first _ _ hfirst =>
    have hmem : first ∈ r := List.mem_of_mem_head? hfirst
    rw [List.mem_append, List.mem_singleton]
    exact ⟨fun h => h.elim id fun h => h ▸ hmem, .inl⟩

theorem forall₂_map_right {α β : Type} {R : α → β → Prop} {f : α → β} (h : ∀ a, R a (f a))
    (l : List α) : List.Forall₂ R l (l.map f) :=
  List.forall₂_map_right_iff.2 (List.forall₂_same.2 fun a _ => h a)

namespace Shape

theorem closes_closed (s : Shape κ) : s.Closes s.closed := by
  cases s with
  | polygon rings => exact .polygon (forall₂_map_right closes_closedRing rings)
  | multiPolygon polygons =>
    exact .multiPolygon (forall₂_map_right (forall₂_map_right closes_closedRing) polygons)

/-- The rings of a shape, those of its first polygon first. -/
def rings (s : Shape κ) : List (Ring κ) := s.polygons.flatten

def coordinates (s : Shape κ) : List κ := s.rings.flatten.flatMap fun p => [p.1, p.2]

end Shape

section

variable {κ : Type} (write : κ → Text) (read : Text → Option κ)

/-- Whether both coordinates of a position are read as what they were written for. -/
structure Position.ReadsBack (p : Position κ) : Prop where
  first : read (write p.1) = some p.1
  second : read (write p.2) = some p.2

def Shape.ReadsBack (s : Shape κ) : Prop := ∀ x ∈ s.coordinates, read (write x) = some x

variable {write read}

theorem Shape.ReadsBack.rings {s : Shape κ} (h : s.ReadsBack write read) :
    ∀ r ∈ s.rings, ∀ p ∈ r, p.ReadsBack write read := by
  intro r hr p hp
  have hcoordinate : ∀ x ∈ [p.1, p.2], x ∈ s.coordinates := fun x hx =>
    List.mem_flatMap.2 ⟨p, List.mem_flatten.2 ⟨r, hr, hp⟩, hx⟩
  exact ⟨h _ (hcoordinate _ (by simp)), h _ (hcoordinate _ (by simp))⟩

theorem Shape.ReadsBack.polygons {s : Shape κ} (h : s.ReadsBack write read) :
    ∀ polygon ∈ s.polygons, ∀ r ∈ polygon, ∀ p ∈ r, p.ReadsBack write read :=
  fun polygon hpolygon r hr => h.rings r (List.mem_flatten.2 ⟨polygon, hpolygon, hr⟩)

end
end MapQuery
