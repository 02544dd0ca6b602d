import MapQuery.Proofs.Text.Cutting
import MapQuery.Text.Blank

/-!
# Lists in brackets

A list is its items between two brackets, with commas between them and perhaps blanks after the
commas. Where the brackets of every item match, it is read back item by item, and is an item itself.
-/

set_option autoImplicit false

namespace MapQuery.Brackets

variable (opening closing : Char)

/-- A beginning of the first of several parts. -/
def extend (t : Text) (parts : Text × List Text) : Text × List Text := (t ++ parts.1, parts.2)

/-- The parts between the commas outside of brackets, the first one apart; there are none where the
brackets do not match. -/
def parts? : Nat → Text → Option (Text × List Text)
  | 0, [] => some ([], [])
  | _ + 1, [] => none
  | depth, c :: t =>
    if c = opening then (parts? (depth + 1) t).map (extend [c])
    else if c = closing then
      match depth with
      | 0 => none
      | depth + 1 => (parts? depth t).map (extend [c])
    else if c = ',' ∧ depth = 0 then (parts? 0 t).map fun parts => ([], parts.1 :: parts.2)
    else (parts? depth t).map (extend [c])

def inside? : Text → Option Text
  | [] => none
  | c :: t => if c = opening ∧ t.getLast? = some closing then some t.dropLast else none

/-- The items of a list, without the blanks before them. -/
def items? (t : Text) : Option (List Text) :=
  (inside? opening closing t).bind fun inside =>
    if inside.trimStart = [] then some []
    else (parts? opening closing 0 inside).map fun parts =>
      (parts.1 :: parts.2).map Text.trimStart

def list? {α : Type} (read : Text → Option α) (t : Text) : Option (List α) :=
  (items? opening closing t).bind (·.mapM read)

def listText (separator : Text) (items : List Text) : Text :=
  opening :: (Text.joined separator items ++ [closing])

/-- Whether a scan that starts at a depth passes over a text without a cut. -/
def Uncut (depth : Nat) (t : Text) : Prop :=
  ∀ rest, parts? opening closing depth (t ++ rest) =
    (parts? opening closing depth rest).map (extend t)

/-- Whether a text starts with something other than a blank and is never cut. -/
structure IsItem (t : Text) : Prop where
  head : ∃ c ∈ t.head?, isBlank c = false
  uncut : ∀ depth, Uncut opening closing depth t

/-- Whether two characters are good for brackets. -/
structure AreBrackets : Prop where
  distinct : closing ≠ opening
  opening_ne_comma : opening ≠ ','
  closing_ne_comma : closing ≠ ','
  opening_not_blank : isBlank opening = false
  closing_not_blank : isBlank closing = false

/-- Whether a text may stand between items: a comma, perhaps with blanks after it. -/
def IsSeparator (t : Text) : Prop := ∃ blanks, t = ',' :: blanks ∧ Text.blank blanks = true

variable {opening closing}

theorem map_extend_extend (s t : Text) (parts : Option (Text × List Text)) :
    (parts.map (extend t)).map (extend s) = parts.map (extend (s ++ t)) := by
  rw [Option.map_map]
  congr 1
  funext p
  exact Prod.ext (List.append_assoc _ _ _).symm rfl

namespace Uncut

theorem nil (depth : Nat) : Uncut opening closing depth [] :=
  fun _ => Option.map_id'.symm

theorem append {depth : Nat} {s t : Text} (hs : Uncut opening closing depth s)
    (ht : Uncut opening closing depth t) : Uncut opening closing depth (s ++ t) := by
  intro rest
  rw [List.append_assoc, hs, ht, map_extend_extend]

theorem char {depth : Nat} {c : Char} (ho : c ≠ opening) (hc : c ≠ closing)
    (hcomma : c ≠ ',' ∨ depth ≠ 0) : Uncut opening closing depth [c] := by
  intro rest
  have hno : ¬(c = ',' ∧ depth = 0) := by
    rintro ⟨h, h'⟩
    exact hcomma.elim (· h) (· h')
  rw [List.singleton_append, parts?.eq_def]
  simp only [ho, hc, hno, if_false]

theorem of_chars {depth : Nat} {t : Text}
    (h : ∀ c ∈ t, c ≠ opening ∧ c ≠ closing ∧ (c ≠ ',' ∨ depth ≠ 0)) :
    Uncut opening closing depth t := by
  induction t with
  | nil => exact nil depth
  | cons c t ih =>
    obtain ⟨⟨ho, hc, hcomma⟩, ht⟩ := List.forall_mem_cons.1 h
    exact (char ho hc hcomma).append (ih ht)

/-- Within brackets commas do not count. -/
theorem bracketed {depth : Nat} {t : Text} (hne : closing ≠ opening)
    (h : Uncut opening closing (depth + 1) t) :
    Uncut opening closing depth (opening :: (t ++ [closing])) := by
  intro rest
  have hclose : parts? opening closing (depth + 1) (closing :: rest) =
      (parts? opening closing depth rest).map (extend [closing]) := by
    rw [parts?.eq_def]
    simp only [hne, if_false, if_true]
  rw [List.cons_append, parts?.eq_def]
  simp only [if_true]
  rw [List.append_assoc, List.singleton_append, h, hclose, map_extend_extend, map_extend_extend]
  rfl

theorem joined {depth : Nat} {separator : Text} (hs : Uncut opening closing depth separator)
    {items : List Text} (h : ∀ t ∈ items, Uncut opening closing depth t) :
    Uncut opening closing depth (Text.joined separator items) :=
  Text.joined_induction (P := Uncut opening closing depth) (nil depth) (fun _ _ => append) hs h

end Uncut

namespace IsItem

variable {t : Text} (h : IsItem opening closing t)
include h

theorem ne_nil : t ≠ [] := by
  rintro rfl
  obtain ⟨c, hc, -⟩ := h.head
  cases hc

theorem trimStart_append (rest : Text) : (t ++ rest).trimStart = t ++ rest := by
  obtain ⟨c, hc, hblank⟩ := h.head
  obtain ⟨t, rfl⟩ := List.head?_eq_some_iff.1 hc
  exact Text.trimStart_cons hblank _

theorem trimStart_eq : t.trimStart = t := by
  rw [← List.append_nil t, h.trimStart_append]

end IsItem

theorem inside?_listText (separator : Text) (items : List Text) :
    inside? opening closing (listText opening closing separator items) =
      some (Text.joined separator items) := by
  rw [listText, inside?, if_pos ⟨rfl, List.getLast?_concat⟩, List.dropLast_concat]

namespace AreBrackets

theorem round : AreBrackets '(' ')' := by
  constructor <;> decide

theorem square : AreBrackets '[' ']' := by
  constructor <;> decide

variable (h : AreBrackets opening closing)
include h

theorem uncut_blanks {blanks : Text} (hblanks : Text.blank blanks = true) (depth : Nat) :
    Uncut opening closing depth blanks := by
  refine .of_chars fun c hc => ?_
  have hblank : isBlank c = true := Text.isBlank_of_blank hblanks c hc
  have hne {d : Char} (hd : isBlank d = false) : c ≠ d := by
    rintro rfl
    rw [hblank] at hd
    cases hd
  exact ⟨hne h.opening_not_blank, hne h.closing_not_blank, .inl (hne (by decide))⟩

theorem uncut_separator {separator : Text} (hs : IsSeparator separator) (depth : Nat) :
    Uncut opening closing (depth + 1) separator := by
  obtain ⟨blanks, rfl, hblanks⟩ := hs
  have hcomma : Uncut opening closing (depth + 1) [','] :=
    .char h.opening_ne_comma.symm h.closing_ne_comma.symm (.inr (Nat.succ_ne_zero depth))
  exact hcomma.append (h.uncut_blanks hblanks _)

/-- A list is an item of another one. -/
theorem isItem_listText {separator : Text} (hs : IsSeparator separator) {items : List Text}
    (hitems : ∀ t ∈ items, IsItem opening closing t) :
    IsItem opening closing (listText opening closing separator items) where
  head := ⟨opening, rfl, h.opening_not_blank⟩
  uncut depth :=
    .bracketed h.distinct (.joined (h.uncut_separator hs depth) fun t ht => (hitems t ht).uncut _)

/-- The parts are what stands between the commas. -/
theorem parts?_joined {blanks : Text} (hblanks : Text.blank blanks = true) {t : Text}
    {rest : List Text} (hitems : ∀ u ∈ t :: rest, Uncut opening closing 0 u) :
    parts? opening closing 0 (Text.joined (',' :: blanks) (t :: rest)) =
      some (t, rest.map (blanks ++ ·)) := by
  induction rest generalizing t with
  | nil =>
    have ht := hitems t List.mem_cons_self []
    rw [List.append_nil] at ht
    rw [Text.joined, ht, parts?]
    simp [extend]
  | cons u rest ih =>
    obtain ⟨ht, hrest⟩ := List.forall_mem_cons.1 hitems
    have hcut (v : Text) : parts? opening closing 0 (',' :: v) =
        (parts? opening closing 0 v).map fun parts => ([], parts.1 :: parts.2) := by
      rw [parts?.eq_def]
      simp only [h.opening_ne_comma.symm, h.closing_ne_comma.symm, if_false, true_and, if_true]
    rw [Text.joined, List.append_assoc, ht, List.cons_append, hcut, h.uncut_blanks hblanks,
      ih hrest]
    simp [extend]

theorem items?_listText {separator : Text} (hs : IsSeparator separator) {items : List Text}
    (hitems : ∀ t ∈ items, IsItem opening closing t) :
    items? opening closing (listText opening closing separator items) = some items := by
  obtain ⟨blanks, rfl, hblanks⟩ := hs
  rw [items?, inside?_listText, Option.bind_some]
  cases items with
  | nil => rfl
  | cons t rest =>
    have hhead : (Text.joined (',' :: blanks) (t :: rest)).trimStart ≠ [] := by
      obtain ⟨tail, htail⟩ : ∃ tail, Text.joined (',' :: blanks) (t :: rest) = t ++ tail := by
        cases rest with
        | nil => exact ⟨[], (List.append_nil t).symm⟩
        | cons u rest => exact ⟨_, List.append_assoc _ _ _⟩
      rw [htail, (hitems t List.mem_cons_self).trimStart_append]
      exact List.append_ne_nil_of_left_ne_nil (hitems t List.mem_cons_self).ne_nil tail
    rw [if_neg hhead, h.parts?_joined hblanks fun u hu => (hitems u hu).uncut 0, Option.map_some,
      List.map_cons, (hitems t List.mem_cons_self).trimStart_eq, List.map_map]
    have hrest : ∀ u ∈ rest, (Text.trimStart ∘ (blanks ++ ·)) u = u := by
      intro u hu
      change Text.trimStart (blanks ++ u) = u
      rw [Text.trimStart_append_of_blank hblanks]
      exact (hitems u (List.mem_cons_of_mem t hu)).trimStart_eq
    rw [List.map_congr_left hrest, List.map_id']

/-- What is written item by item as a list is read from it item by item. -/
theorem list?_listText {separator : Text} (hs : IsSeparator separator) {α β : Type}
    {write : α → Text} {read : Text → Option β} {f : α → β} {l : List α}
    (hitem : ∀ a ∈ l, IsItem opening closing (write a))
    (hread : ∀ a ∈ l, read (write a) = some (f a)) :
    list? opening closing read (listText opening closing separator (l.map write)) =
      some (l.map f) := by
  rw [list?, h.items?_listText hs (List.forall_mem_map.2 hitem), Option.bind_some]
  exact mapM_map_eq_some hread

end AreBrackets

end MapQuery.Brackets
