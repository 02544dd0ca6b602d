import MapQuery.Area.Rings
import MapQuery.Proofs.Area.Closing
import Mathlib.Algebra.BigOperators.Group.List.Basic
import Mathlib.Algebra.Order.Ring.Defs
import Mathlib.Data.List.Rotate
import Mathlib.Tactic.Ring

/-!
# Orientation

In exact arithmetic the area of a ring changes its sign when the ring is reversed, so every ring can
be turned the way that its place in a polygon asks for.
-/

set_option autoImplicit false

namespace MapQuery

/-- What a ring is to its polygon. -/
inductive Role where
  | exterior
  | hole

namespace Role

/-- Whether rings of this role turn clockwise. -/
def clockwise : Role → Bool
  | .exterior => true
  | .hole => false

/-- The areas that rings of this role may have. -/
def Allows {κ : Type} [LE κ] [OfNat κ 0] (area : κ) : Role → Prop
  | .exterior => area ≤ 0
  | .hole => 0 ≤ area

end Role

def Polygon.roles {κ : Type} : Polygon κ → List (Role × Ring κ)
  | [] => []
  | exterior :: holes => (.exterior, exterior) :: holes.map (.hole, ·)

/-- The rings of a shape with what they are to their polygons. -/
def Shape.roles {κ : Type} (s : Shape κ) : List (Role × Ring κ) := s.polygons.flatMap Polygon.roles

theorem Shape.map_snd_roles {κ : Type} (s : Shape κ) : s.roles.map Prod.snd = s.rings := by
  have hpolygon (p : Polygon κ) : p.roles.map Prod.snd = p := by
    cases p with
    | nil => rfl
    | cons exterior holes => simp [Polygon.roles]
  rw [Shape.roles, List.map_flatMap, Shape.rings]
  simp [hpolygon]

/-- Closing keeps what a ring is to its polygon. -/
theorem Shape.roles_closed {κ : Type} [BEq κ] (s : Shape κ) :
    s.closed.roles = s.roles.map fun p => (p.1, closedRing p.2) := by
  have hpolygon (p : Polygon κ) :
      Polygon.roles (p.map closedRing) = p.roles.map fun p => (p.1, closedRing p.2) := by
    cases p with
    | nil => rfl
    | cons exterior holes => simp [Polygon.roles]
  have hpolygons : s.closed.polygons = s.polygons.map (·.map closedRing) := by
    cases s <;> rfl
  rw [Shape.roles, Shape.roles, hpolygons, List.flatMap_map, List.map_flatMap]
  exact List.flatMap_congr fun p _ => hpolygon p

namespace Rings

/-- A ring as it is or the other way round. -/
def Turned {κ : Type} (r t : Ring κ) : Prop := t = r ∨ t = r.reverse

section

variable {κ : Type} [Add κ] [Sub κ] [Mul κ] [OfNat κ 0] [BEq κ] [LT κ] [DecidableLT κ]

theorem turned_oriented (clockwise : Bool) (r : Ring κ) :
    Turned (closedRing r) (oriented clockwise r) := by
  simp only [oriented]
  split
  · exact .inl rfl
  · exact .inr rfl

theorem ofShapes_eq_map (shapes : List (Shape κ)) :
    ofShapes shapes =
      (shapes.flatMap Shape.roles).map fun p => oriented p.1.clockwise p.2 := by
  have hpolygon : ofPolygon = fun p : Polygon κ =>
      p.roles.map fun p => oriented p.1.clockwise p.2 := by
    funext p
    cases p with
    | nil => rfl
    | cons exterior holes => simp [ofPolygon, Polygon.roles, Role.clockwise]
  simp only [ofShapes, hpolygon, List.map_flatMap, Shape.roles]

/-- What relates a closed ring to the oriented one relates the rings of closed shapes to the list of
all oriented rings. -/
theorem forall₂_ofShapes {R : Role × Ring κ → Ring κ → Prop}
    (h : ∀ role r, R (role, closedRing r) (oriented role.clockwise r)) (shapes : List (Shape κ)) :
    List.Forall₂ R ((shapes.map Shape.closed).flatMap Shape.roles) (ofShapes shapes) := by
  have hclosed : (shapes.map Shape.closed).flatMap Shape.roles =
      (shapes.flatMap Shape.roles).map fun p => (p.1, closedRing p.2) := by
    rw [List.flatMap_map, List.map_flatMap]
    exact List.flatMap_congr fun s _ => s.roles_closed
  rw [hclosed, ofShapes_eq_map, List.forall₂_map_left_iff, List.forall₂_map_right_iff,
    List.forall₂_same]
  exact fun p _ => h p.1 p.2

end

section

variable {κ : Type} [CommRing κ]

theorem cross_swap (p q : Position κ) : cross q p = -cross p q := by
  simp only [cross]
  ring

theorem signedArea_eq_sum (r : Ring κ) :
    signedArea r = (List.zipWith cross r (r.rotate 1)).sum := by
  have hrotate : r.drop 1 ++ r.take 1 = r.rotate 1 := by
    cases r with
    | nil => rfl
    | cons p r => exact (List.rotate_eq_drop_append_take (Nat.le_add_left 1 r.length)).symm
  rw [signedArea, hrotate, List.sum_eq_foldl]

theorem rotate_reverse_rotate {α : Type} (l : List α) :
    (l.rotate 1).reverse.rotate 1 = l.reverse := by
  cases l with
  | nil => rfl
  | cons a l => simp

/-- A ring the other way round has the opposite area. -/
theorem signedArea_reverse (r : Ring κ) : signedArea r.reverse = -signedArea r := by
  -- Reversal pairs every position with the one before it; up to the order of the terms these are
  -- the pairs of the ring itself, each one swapped.
  have hpairs : (List.zipWith cross r (r.rotate 1)).reverse.rotate 1 =
      List.zipWith (fun p q => -cross p q) r.reverse (r.reverse.rotate 1) := by
    rw [List.reverse_zipWith (List.length_rotate r 1).symm,
      List.zipWith_rotate_distrib _ _ _ _ (by simp), rotate_reverse_rotate, List.zipWith_comm]
    exact congrArg (List.zipWith · r.reverse (r.reverse.rotate 1)) (funext₂ cross_swap)
  have hsum : signedArea r = (List.zipWith (fun p q => -cross p q) r.reverse
      (r.reverse.rotate 1)).sum := by
    rw [signedArea_eq_sum, ← hpairs, (List.rotate_perm _ 1).sum_eq, List.sum_reverse]
  have hneg : List.zipWith (fun p q => -cross p q) r.reverse (r.reverse.rotate 1) =
      (List.zipWith cross r.reverse (r.reverse.rotate 1)).map (-·) := List.map_zipWith.symm
  rw [hsum, hneg, signedArea_eq_sum, ← List.sum_neg, neg_neg]

variable [LinearOrder κ] [IsStrictOrderedRing κ]

/-- Exterior rings have no positive area and holes no negative one. -/
theorem allows_oriented (role : Role) (r : Ring κ) :
    role.Allows (signedArea (oriented role.clockwise r)) := by
  by_cases hnegative : signedArea (closedRing r) < 0
  · cases role with
    | exterior => simpa [oriented, hnegative, Role.clockwise, Role.Allows] using hnegative.le
    | hole =>
      simpa [oriented, hnegative, Role.clockwise, Role.Allows, signedArea_reverse] using
        hnegative.le
  · have hle := not_lt.1 hnegative
    cases role with
    | exterior =>
      simpa [oriented, hnegative, Role.clockwise, Role.Allows, signedArea_reverse] using hle
    | hole => simpa [oriented, hnegative, Role.clockwise, Role.Allows] using hle

end
end Rings
end MapQuery
