import MapQuery.Area.WellKnown
import MapQuery.Proofs.Area.Closing
import MapQuery.Proofs.Text.Numerals

/-!
# Well-known text that is read back

Shapes are read from well-known text ring by ring, whatever their numbers are written with, as long
as those are numerals and can be read themselves.
-/

set_option autoImplicit false

namespace MapQuery.WellKnown

open Brackets (AreBrackets IsItem IsSeparator)

section

variable {κ : Type} (read : Text → Option κ)

def position? : Text → Option (Position κ) := Text.sides? ' ' read

def ring? : Text → Option (Ring κ) := Brackets.list? '(' ')' (position? read)

def polygon? : Text → Option (Polygon κ) := Brackets.list? '(' ')' (ring? read)

/-- The shape that a well-known text says. -/
def shape? (t : Text) : Option (Shape κ) :=
  match Text.dropBeginning? "POLYGON " t with
  | some rings => (polygon? read rings).map .polygon
  | none =>
    (Text.dropBeginning? "MULTIPOLYGON " t).bind fun polygons =>
      (Brackets.list? '(' ')' (polygon? read) polygons).map .multiPolygon

end

theorem isSeparator : IsSeparator ", " := ⟨[' '], rfl, rfl⟩

variable {κ : Type} {number : κ → Text} {read : Text → Option κ}
  (hnumber : ∀ x, (number x).IsNumeral)
include hnumber

theorem isItem_position (p : Position κ) : IsItem '(' ')' (position number p) where
  head := by
    obtain ⟨c, hc, hblank⟩ := (hnumber p.1).exists_head
    refine ⟨c, ?_, hblank⟩
    rw [position, List.append_assoc, List.head?_append, Option.mem_def.1 hc]
    rfl
  uncut depth := by
    have hround (x : κ) : Brackets.Uncut '(' ')' depth (number x) :=
      (hnumber x).uncut (by decide) (by decide) depth
    have hblank : Brackets.Uncut '(' ')' depth " " :=
      .char (by decide) (by decide) (.inl (by decide))
    exact ((hround p.1).append hblank).append (hround p.2)

theorem position?_position {p : Position κ} (h : p.ReadsBack number read) :
    position? read (position number p) = some p :=
  Text.sides?_append ((hnumber p.1).not_mem (by decide)) h.first h.second

variable [BEq κ]

theorem isItem_ring (r : Ring κ) : IsItem '(' ')' (ring number r) :=
  AreBrackets.round.isItem_listText isSeparator
    (List.forall_mem_map.2 fun p _ => isItem_position hnumber p)

theorem ring?_ring {r : Ring κ} (h : ∀ p ∈ r, p.ReadsBack number read) :
    ring? read (ring number r) = some (closedRing r) := by
  rw [← List.map_id (closedRing r)]
  refine AreBrackets.round.list?_listText isSeparator (fun p _ => isItem_position hnumber p) ?_
  intro p hp
  exact position?_position hnumber (h p (mem_closedRing.1 hp))

theorem isItem_polygon (p : Polygon κ) : IsItem '(' ')' (polygon number p) :=
  AreBrackets.round.isItem_listText isSeparator
    (List.forall_mem_map.2 fun r _ => isItem_ring hnumber r)

theorem polygon?_polygon {p : Polygon κ} (h : ∀ r ∈ p, ∀ q ∈ r, q.ReadsBack number read) :
    polygon? read (polygon number p) = some (p.map closedRing) :=
  AreBrackets.round.list?_listText isSeparator (fun r _ => isItem_ring hnumber r)
    fun r hr => ring?_ring hnumber (h r hr)

/-- A shape is read from its text with its rings closed. -/
theorem shape?_shape {s : Shape κ} (h : s.ReadsBack number read) :
    shape? read (shape number s) = some s.closed := by
  have hrings := h.polygons
  cases s with
  | polygon rings =>
    have hkind : Text.dropBeginning? "POLYGON " (shape number (.polygon rings)) =
        some (polygon number rings) := Text.dropBeginning?_eq_some_iff.2 rfl
    have hpolygon := polygon?_polygon hnumber (hrings rings (List.mem_singleton_self rings))
    rw [shape?, hkind]
    exact congrArg (Option.map Shape.polygon) hpolygon
  | multiPolygon polygons =>
    have hother : Text.dropBeginning? "POLYGON " (shape number (.multiPolygon polygons)) = none :=
      rfl
    have hkind : Text.dropBeginning? "MULTIPOLYGON " (shape number (.multiPolygon polygons)) =
        some (Text.paren (Text.joined ", " (polygons.map (polygon number)))) :=
      Text.dropBeginning?_eq_some_iff.2 rfl
    have hpolygons := AreBrackets.round.list?_listText isSeparator
      (fun p _ => isItem_polygon hnumber p) fun p hp => polygon?_polygon hnumber (hrings p hp)
    rw [shape?, hother, hkind]
    exact congrArg (Option.map Shape.multiPolygon) hpolygons

end MapQuery.WellKnown
