import MapQuery.Area.Gml
import MapQuery.Proofs.Area.Closing
import MapQuery.Proofs.Markup.Spelling
import MapQuery.Proofs.Text.Numerals

/-!
# Geography markup that is read back

The markup of a shape spells one tree, and from that tree the shape is read with its rings closed.
Readers take the trees inside an element, so that each one is put together from those of its parts.
-/

set_option autoImplicit false

namespace MapQuery

namespace Markup

section

variable {α : Type}

/-- Reads what an element of the given name and attributes holds. -/
def within? (name : Text) (attributes : List (Text × Text)) (read : List Tree → Option α) :
    Tree → Option α
  | .element n as content => if n = name ∧ as = attributes then read content else none
  | .chars _ => none

def only? (read : Tree → Option α) : List Tree → Option α
  | [t] => read t
  | _ => none

def text? (read : Text → Option α) : List Tree → Option α
  | [] => read []
  | [.chars t] => read t
  | _ => none

/-- Whether a text spells trees from which something is read. -/
def Tells (read : List Tree → Option α) (text : Text) (a : α) : Prop :=
  ∃ ts, Spells text ts ∧ read ts = some a

namespace Tells

variable {read : List Tree → Option α} {text : Text} {a : α}

/-- A text does not tell two things. -/
theorem iff_eq (h : Tells read text a) (b : α) : Tells read text b ↔ b = a := by
  obtain ⟨ts, hts, hread⟩ := h
  constructor
  · rintro ⟨ts', hts', hread'⟩
    rw [hts'.unique hts, hread] at hread'
    exact (Option.some.inj hread').symm
  · rintro rfl
    exact ⟨ts, hts, hread⟩

theorem exists_only {read : Tree → Option α} (h : Tells (only? read) text a) :
    ∃ t, Spells text [t] ∧ read t = some a := by
  obtain ⟨ts, hts, hread⟩ := h
  match ts, hread with
  | [t], hread => exact ⟨t, hts, hread⟩

theorem element {name : Text} {attributes : List (Text × Text)} (htag : IsTag name attributes)
    (h : Tells read text a) :
    Tells (only? (within? name attributes read)) (Markup.element name attributes text) a := by
  obtain ⟨ts, hts, hread⟩ := h
  refine ⟨_, .single htag hts, ?_⟩
  rw [only?, within?, if_pos ⟨rfl, rfl⟩, hread]

theorem elementOfText {name : Text} {attributes : List (Text × Text)} {read : Text → Option α}
    (htag : IsTag name attributes) (hplain : ∀ c ∈ text, c ∉ reserved) (h : read text = some a) :
    Tells (only? (within? name attributes (text? read))) (Markup.element name attributes text)
      a := by
  have hspells := Spells.ofText htag text
  rw [encode_eq_self hplain] at hspells
  refine ⟨_, hspells, ?_⟩
  rw [only?, within?, if_pos ⟨rfl, rfl⟩, Tree.contentOfText]
  split
  · next hnil =>
    rw [hnil] at h
    exact h
  · exact h

theorem flatMap {β : Type} {read : Tree → Option β} {write : α → Text} {f : α → β} {l : List α}
    (h : ∀ a ∈ l, Tells (only? read) (write a) (f a)) :
    Tells (List.mapM read) (l.flatMap write) (l.map f) := by
  induction l with
  | nil => exact ⟨[], .nil, rfl⟩
  | cons a rest ih =>
    obtain ⟨ha, hrest⟩ := List.forall_mem_cons.1 h
    obtain ⟨t, ht, hread⟩ := ha.exists_only
    obtain ⟨ts, hts, hreads⟩ := ih hrest
    refine ⟨t :: ts, ?_, ?_⟩
    · rw [List.flatMap_cons]
      exact ht.append hts
    · rw [List.mapM_cons, hread, hreads]
      rfl

end Tells
end
end Markup

namespace Gml

open Markup (Tells Tree only? within? text?)

section

variable {κ : Type} (read : Text → Option κ)

def position? : Text → Option (Position κ) := Text.sides? ',' read

def ring? : List Tree → Option (Ring κ) :=
  only? (within? "gml:LinearRing" [] (only? (within? "gml:coordinates" []
    (text? fun t => (Text.pieces ' ' t).mapM (position? read)))))

def boundaries? : List Tree → Option (Polygon κ)
  | [] => some []
  | exterior :: holes =>
    (within? "gml:outerBoundaryIs" [] (ring? read) exterior).bind fun r =>
      (holes.mapM (within? "gml:innerBoundaryIs" [] (ring? read))).map fun rs => r :: rs

def polygon? (attributes : List (Text × Text)) : List Tree → Option (Polygon κ) :=
  only? (within? "gml:Polygon" attributes (boundaries? read))

def polygons? : List Tree → Option (List (Polygon κ)) :=
  only? (within? "gml:MultiPolygon" reference
    (List.mapM (within? "gml:polygonMember" [] (polygon? read []))))

/-- The shape that markup says. -/
def shape? (ts : List Tree) : Option (Shape κ) :=
  match polygon? read reference ts with
  | some rings => some (.polygon rings)
  | none => (polygons? read ts).map .multiPolygon

end

variable {κ : Type} {number : κ → Text} {read : Text → Option κ}
  (hnumber : ∀ x, (number x).IsNumeral)
include hnumber

theorem position?_position {p : Position κ} (h : p.ReadsBack number read) :
    position? read (position number p) = some p :=
  Text.sides?_append ((hnumber p.1).not_mem (by decide)) h.first h.second

theorem not_mem_position {c : Char} (hc : isNumeralChar c = false) (hcomma : c ≠ ',')
    (p : Position κ) : c ∉ position number p := by
  intro h
  rcases List.mem_append.1 h with h | h
  · rcases List.mem_append.1 h with h | h
    · exact (hnumber p.1).not_mem hc h
    · exact hcomma (List.mem_singleton.1 h)
  · exact (hnumber p.2).not_mem hc h

theorem position_ne_nil (p : Position κ) : position number p ≠ [] :=
  List.append_ne_nil_of_right_ne_nil _ (hnumber p.2).ne_nil

variable [BEq κ]

theorem tells_ring {r : Ring κ} (h : ∀ p ∈ r, p.ReadsBack number read) :
    Tells (ring? read) (ring number r) (closedRing r) := by
  refine .element (by decide) (.elementOfText (by decide) ?_ ?_)
  · intro c hc hreserved
    have hmarks : ∀ c ∈ Markup.reserved, isNumeralChar c = false ∧ c ≠ ',' ∧ c ∉ (" " : Text) := by
      rw [Markup.forall_mem_reserved]
      decide
    obtain ⟨hnumeral, hcomma, hblank⟩ := hmarks c hreserved
    refine Text.joined_induction (P := (c ∉ ·)) List.not_mem_nil ?_ hblank ?_ hc
    · exact fun s t hs ht h => (List.mem_append.1 h).elim hs ht
    · exact List.forall_mem_map.2 fun p _ => not_mem_position hnumber hnumeral hcomma p
  · have hpieces : Text.pieces ' ' (Text.joined " " ((closedRing r).map (position number))) =
        (closedRing r).map (position number) :=
      Text.pieces_joined
        (List.forall_mem_map.2 fun p _ => not_mem_position hnumber (by decide) (by decide) p)
        (List.forall_mem_map.2 fun p _ => position_ne_nil hnumber p)
    have hread : ((closedRing r).map (position number)).mapM (position? read) =
        some ((closedRing r).map id) :=
      mapM_map_eq_some fun p hp => position?_position hnumber (h p (mem_closedRing.1 hp))
    rw [hpieces, hread, List.map_id]

theorem tells_boundaries {p : Polygon κ} (h : ∀ r ∈ p, ∀ q ∈ r, q.ReadsBack number read) :
    Tells (boundaries? read) (boundaries number p) (p.map closedRing) := by
  cases p with
  | nil => exact ⟨[], .nil, rfl⟩
  | cons exterior holes =>
    obtain ⟨hexterior, hholes⟩ := List.forall_mem_cons.1 h
    have houter := (tells_ring hnumber hexterior).element
      (show Markup.IsTag "gml:outerBoundaryIs" [] by decide)
    have hinner : ∀ r ∈ holes, Tells (only? (within? "gml:innerBoundaryIs" [] (ring? read)))
        (Markup.element "gml:innerBoundaryIs" [] (ring number r)) (closedRing r) :=
      fun r hr => (tells_ring hnumber (hholes r hr)).element (by decide)
    obtain ⟨t, ht, hread⟩ := houter.exists_only
    obtain ⟨ts, hts, hreads⟩ := Tells.flatMap hinner
    refine ⟨t :: ts, ht.append hts, ?_⟩
    rw [boundaries?, hread, Option.bind_some, hreads]
    rfl

theorem tells_polygon {attributes : List (Text × Text)}
    (htag : Markup.IsTag "gml:Polygon" attributes) {p : Polygon κ}
    (h : ∀ r ∈ p, ∀ q ∈ r, q.ReadsBack number read) :
    Tells (polygon? read attributes) (polygon number attributes p) (p.map closedRing) :=
  (tells_boundaries hnumber h).element htag

/-- A shape is read from its markup with its rings closed. -/
theorem tells_shape {s : Shape κ} (h : s.ReadsBack number read) :
    Tells (shape? read) (shape number s) s.closed := by
  have hrings := h.polygons
  cases s with
  | polygon rings =>
    obtain ⟨ts, hts, hread⟩ := tells_polygon hnumber
      (show Markup.IsTag "gml:Polygon" reference by decide +kernel)
      (hrings rings (List.mem_singleton_self rings))
    exact ⟨ts, hts, by rw [shape?, hread]; rfl⟩
  | multiPolygon polygons =>
    have hmembers : ∀ p ∈ polygons,
        Tells (only? (within? "gml:polygonMember" [] (polygon? read [])))
          (Markup.element "gml:polygonMember" [] (polygon number [] p)) (p.map closedRing) :=
      fun p hp => (tells_polygon hnumber (by decide) (hrings p hp)).element (by decide)
    obtain ⟨ts, hts, hreads⟩ := Tells.flatMap hmembers
    refine ⟨_, .single (show Markup.IsTag "gml:MultiPolygon" reference by decide +kernel) hts, ?_⟩
    rw [shape?, polygon?, only?, within?, if_neg (by decide), polygons?, only?, within?,
      if_pos ⟨rfl, rfl⟩, hreads]
    rfl

end Gml
end MapQuery
