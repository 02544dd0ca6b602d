import MapQuery.Json.Decode
import MapQuery.Proofs.Area.Gml
import MapQuery.Proofs.Area.Orientation
import MapQuery.Proofs.Area.WellKnown
import Mathlib.Algebra.Order.Ring.Int

/-!
# Encodings that agree

The three encodings of shapes say the same rings. Two of them keep shapes and polygons apart, the
third one has all rings in one list and turns them.
-/

set_option autoImplicit false

namespace MapQuery

namespace Rings

open Brackets (AreBrackets IsItem IsSeparator listText)
open Decimal (Layout isNumeral_json)
open Json (Value)

section

variable {κ : Type} (read : Text → Option κ)

def position? (t : Text) : Option (Position κ) :=
  match Brackets.list? '[' ']' read t with
  | some [x, y] => some (x, y)
  | _ => none

def ring? : Text → Option (Ring κ) := Brackets.list? '[' ']' (position? read)

/-- What stands before the rings. -/
def beginning : Text := "\x7b\"rings\":"

/-- What stands after the rings. -/
def ending : Text :=
  ",\"spatialReference\":\x7b\"wkid\":" ++ Text.natural referenceSystem ++ "\x7d\x7d"

/-- The rings in a JSON text of the form in which shapes are sent. -/
def rings? (t : Text) : Option (List (Ring κ)) :=
  (Text.dropBeginning? beginning t).bind fun t =>
    (Text.dropEnd? ending t).bind (Brackets.list? '[' ']' (ring? read))

end

theorem isSeparator : IsSeparator "," := ⟨[], rfl, rfl⟩

def positionText (p : Position Float) : Text :=
  listText '[' ']' "," ([p.1, p.2].map Layout.json.write)

def ringText (r : Ring Float) : Text := listText '[' ']' "," (r.map positionText)

theorem compact_array (items : List Value) :
    (Value.array items).compact = listText '[' ']' "," (items.map Value.compact) := by
  rw [Value.compact, Value.compactItems_eq_map]
  rfl

theorem compact_ringValue (r : Ring Float) : (Shape.ringValue r).compact = ringText r := by
  have hposition (p : Position Float) :
      (Value.array [.number (.real p.1), .number (.real p.2)]).compact = positionText p := by
    rw [compact_array]
    rfl
  rw [Shape.ringValue, compact_array, ringText, List.map_map]
  exact congrArg (listText '[' ']' ",") (List.map_congr_left fun p _ => hposition p)

theorem text_eq (shapes : List (Shape Float)) :
    text shapes =
      beginning ++ (listText '[' ']' "," ((ofShapes shapes).map ringText) ++ ending) := by
  have hrings : (Value.array ((ofShapes shapes).map Shape.ringValue)).compact =
      listText '[' ']' "," ((ofShapes shapes).map ringText) := by
    rw [compact_array, List.map_map]
    exact congrArg (listText '[' ']' ",") (List.map_congr_left fun r _ => compact_ringValue r)
  rw [text, Value.compact, Value.compactMembers_eq_map]
  simp only [List.map_cons, List.map_nil, Text.joined, hrings, List.append_assoc]
  rfl

theorem isItem_positionText (p : Position Float) : IsItem '[' ']' (positionText p) :=
  AreBrackets.square.isItem_listText isSeparator
    (List.forall_mem_map.2 fun x _ => (isNumeral_json x).isItem (by decide) (by decide))

theorem isItem_ringText (r : Ring Float) : IsItem '[' ']' (ringText r) :=
  AreBrackets.square.isItem_listText isSeparator
    (List.forall_mem_map.2 fun p _ => isItem_positionText p)

variable {read : Text → Option Float}

theorem position?_positionText {p : Position Float} (h : p.ReadsBack Layout.json.write read) :
    position? read (positionText p) = some p := by
  have hlist : Brackets.list? '[' ']' read (positionText p) = some ([p.1, p.2].map id) := by
    refine AreBrackets.square.list?_listText isSeparator
      (fun x _ => (isNumeral_json x).isItem (by decide) (by decide)) ?_
    simp [h.first, h.second]
  rw [position?, hlist]
  rfl

theorem ring?_ringText {r : Ring Float} (h : ∀ p ∈ r, p.ReadsBack Layout.json.write read) :
    ring? read (ringText r) = some r := by
  have hlist : ring? read (ringText r) = some (r.map id) :=
    AreBrackets.square.list?_listText isSeparator (fun p _ => isItem_positionText p)
      fun p hp => position?_positionText (h p hp)
  rw [hlist, List.map_id]

theorem mem_of_turned {κ : Type} [BEq κ] {r t : Ring κ} (h : Turned (closedRing r) t)
    {p : Position κ} (hp : p ∈ t) : p ∈ r := by
  rcases h with rfl | rfl
  · exact mem_closedRing.1 hp
  · exact mem_closedRing.1 (List.mem_reverse.1 hp)

/-- The rings of all shapes are read from their JSON text. -/
theorem rings?_text {shapes : List (Shape Float)}
    (h : ∀ s ∈ shapes, s.ReadsBack Layout.json.write read) :
    rings? read (text shapes) = some (ofShapes shapes) := by
  have hreads : ∀ t ∈ ofShapes shapes, ∀ p ∈ t, p.ReadsBack Layout.json.write read := by
    intro t ht p hp
    rw [ofShapes_eq_map] at ht
    obtain ⟨q, hq, rfl⟩ := List.mem_map.1 ht
    obtain ⟨s, hs, hrole⟩ := List.mem_flatMap.1 hq
    have hring : q.2 ∈ s.rings := by
      rw [← s.map_snd_roles]
      exact List.mem_map_of_mem hrole
    exact (h s hs).rings q.2 hring p (mem_of_turned (turned_oriented _ _) hp)
  have hlist : Brackets.list? '[' ']' (ring? read)
      (listText '[' ']' "," ((ofShapes shapes).map ringText)) = some ((ofShapes shapes).map id) :=
    AreBrackets.square.list?_listText isSeparator (fun r _ => isItem_ringText r)
      fun r hr => ring?_ringText (hreads r hr)
  rw [rings?, text_eq, Text.dropBeginning?_eq_some_iff.2 rfl, Option.bind_some,
    Text.dropEnd?_eq_some_iff.2 rfl, Option.bind_some, hlist, List.map_id]

end Rings

namespace Shape

open Decimal (Layout)

/-- What the encodings of some shapes say of areas: well-known text and markup say each of them, and
JSON has all their rings in order, as they are or the other way round. -/
structure EncodedAs (plain? json? : Text → Option Float) (shapes areas : List (Shape Float)) :
    Prop where
  wellKnown : List.Forall₂ (fun s area =>
    WellKnown.shape? plain? (WellKnown.shape Layout.plain.write s) = some area) shapes areas
  markup : List.Forall₂ (fun s area => ∀ a,
    Markup.Tells (Gml.shape? plain?) (Gml.shape Layout.plain.write s) a ↔ a = area) shapes areas
  json : ∃ rings, Rings.rings? json? (Rings.text shapes) = some rings ∧
    List.Forall₂ (fun p t => Rings.Turned p.2 t) (areas.flatMap Shape.roles) rings

/-- Whether some rings are those of areas in order, each one turned as its role asks for. -/
def TurnedAs {κ : Type} [CommRing κ] [LE κ] (areas : List (Shape κ)) (rings : List (Ring κ)) :
    Prop :=
  List.Forall₂ (fun p t => Rings.Turned p.2 t ∧ p.1.Allows (Rings.signedArea t))
    (areas.flatMap Shape.roles) rings

/-- The three encodings say the same closed rings of shapes whose numbers can be read back, and in
exact arithmetic the rings in JSON turn the way that their roles ask for. -/
theorem encodings_agree {plain? json? : Text → Option Float} {shapes : List (Shape Float)}
    (hplain : ∀ s ∈ shapes, s.ReadsBack Layout.plain.write plain?)
    (hjson : ∀ s ∈ shapes, s.ReadsBack Layout.json.write json?) :
    (∃ areas, List.Forall₂ Shape.Closes shapes areas ∧ EncodedAs plain? json? shapes areas) ∧
    ∀ (κ : Type) [CommRing κ] [LinearOrder κ] [IsStrictOrderedRing κ] (shapes : List (Shape κ)),
      ∃ areas, List.Forall₂ Shape.Closes shapes areas ∧ TurnedAs areas (Rings.ofShapes shapes) := by
  constructor
  · refine ⟨shapes.map closed, forall₂_map_right closes_closed shapes, ?_, ?_, ?_⟩
    · rw [List.forall₂_map_right_iff, List.forall₂_same]
      exact fun s hs => WellKnown.shape?_shape Decimal.isNumeral_plain (hplain s hs)
    · rw [List.forall₂_map_right_iff, List.forall₂_same]
      exact fun s hs => (Gml.tells_shape Decimal.isNumeral_plain (hplain s hs)).iff_eq
    · exact ⟨_, Rings.rings?_text hjson,
        Rings.forall₂_ofShapes (fun _ r => Rings.turned_oriented _ r) shapes⟩
  · intro κ _ _ _ shapes
    refine ⟨shapes.map closed, forall₂_map_right closes_closed shapes, ?_⟩
    exact Rings.forall₂_ofShapes
      (fun role r => ⟨Rings.turned_oriented _ r, Rings.allows_oriented role r⟩) shapes

/-- A polygon with an open exterior and a hole, and polygons without rings and positions. -/
def ofIslands : List (Shape Float) := [
    .polygon [[(0, 0), (4, 0), (4, 4), (0, 4)], [(1, 1), (1, 2.5), (2, 2), (1, 1)]],
    .multiPolygon [[], [[]], [[(-1.5, 0.25)]]]]

/-- Reads a number as JSON. -/
def coordinate? (t : Text) : Option Float := (Json.readWhole Json.Source.real t).toOption

theorem encodings_agree_of_islands :
    (∃ areas, List.Forall₂ Shape.Closes ofIslands areas ∧
      EncodedAs coordinate? coordinate? ofIslands areas) ∧
    ∃ areas, List.Forall₂ Shape.Closes [.polygon [[(0, 0), (4, 0), (4, 4), (0, 4)]]] areas ∧
      TurnedAs areas [[((0 : Int), (0 : Int)), (0, 4), (4, 4), (4, 0), (0, 0)]] := by
  have hcoordinates : ∀ x ∈ ofIslands.flatMap Shape.coordinates,
      x ∈ [0, 1, 2, 2.5, 4, -1.5, 0.25] := by
    simp [ofIslands, Shape.coordinates, Shape.rings, Shape.polygons]
  have hreads : ∀ l ∈ [Layout.plain, Layout.json],
      ∀ s ∈ ofIslands, s.ReadsBack l.write coordinate? := by
    intro l hl s hs x hx
    have hmem := hcoordinates x (List.mem_flatMap.2 ⟨s, hs, hx⟩)
    simp only [List.mem_cons, List.not_mem_nil, or_false] at hl hmem
    rcases hl with rfl | rfl <;> rcases hmem with rfl | rfl | rfl | rfl | rfl | rfl | rfl <;> rfl
  obtain ⟨hencoded, hturned⟩ := encodings_agree (hreads .plain (by simp)) (hreads .json (by simp))
  exact ⟨hencoded, hturned Int [.polygon [[(0, 0), (4, 0), (4, 4), (0, 4)]]]⟩

end Shape
end MapQuery
