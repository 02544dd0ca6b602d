import MapQuery.Text.Basic

/-!
# Texts cut at marks

What was put together with a mark between the parts is found again by cutting at the mark, where no
part holds it.
-/

set_option autoImplicit false

namespace MapQuery

namespace Text

theorem joined_eq_intercalate (separator : Text) (ts : List Text) :
    joined separator ts = separator.intercalate ts := by
  fun_induction joined separator ts with
  | case1 => rfl
  | case2 t => simp
  | case3 t u rest ih => simp [ih]

/-- The parts between the marks; an empty text has none. -/
def pieces (mark : Char) (t : Text) : List Text := if t = [] then [] else t.splitOn mark

theorem pieces_joined {mark : Char} {ts : List Text} (h : ∀ t ∈ ts, mark ∉ t)
    (hne : ∀ t ∈ ts, t ≠ []) : pieces mark (joined [mark] ts) = ts := by
  have hjoined : ts ≠ [] → joined [mark] ts ≠ [] := by
    intro hts hnil
    cases ts with
    | nil => exact hts rfl
    | cons t rest =>
      cases rest with
      | nil => exact hne t (List.mem_singleton_self t) hnil
      | cons u rest => simp [joined] at hnil
  by_cases hts : ts = []
  · subst hts
    rfl
  · rw [pieces, if_neg (hjoined hts), joined_eq_intercalate]
    exact List.splitOn_intercalate mark h hts

/-- What stands before and after the first mark. -/
def cut? (mark : Char) (t : Text) : Option (Text × Text) :=
  match t.dropWhile (· != mark) with
  | [] => none
  | _ :: rest => some (t.takeWhile (· != mark), rest)

theorem cut?_append {mark : Char} {s : Text} (h : mark ∉ s) (t : Text) :
    cut? mark (s ++ mark :: t) = some (s, t) := by
  have hs : ∀ c ∈ s, (c != mark) = true := fun c hc => bne_iff_ne.2 (ne_of_mem_of_not_mem hc h)
  rw [cut?, List.dropWhile_append_of_pos hs, List.takeWhile_append_of_pos hs]
  simp

/-- What stands on the two sides of the first mark, read. -/
def sides? {α : Type} (mark : Char) (read : Text → Option α) (t : Text) : Option (α × α) :=
  (cut? mark t).bind fun p => (read p.1).bind fun a => (read p.2).map fun b => (a, b)

theorem sides?_append {α : Type} {mark : Char} {read : Text → Option α} {s t : Text} {a b : α}
    (hmark : mark ∉ s) (hs : read s = some a) (ht : read t = some b) :
    sides? mark read (s ++ [mark] ++ t) = some (a, b) := by
  rw [List.append_assoc, List.singleton_append, sides?, cut?_append hmark, Option.bind_some, hs,
    Option.bind_some, ht]
  rfl

end Text

/-- What is written item by item is read item by item. -/
theorem mapM_map_eq_some {α β γ : Type} {write : α → β} {read : β → Option γ} {f : α → γ}
    {l : List α} (h : ∀ a ∈ l, read (write a) = some (f a)) :
    (l.map write).mapM read = some (l.map f) := by
  induction l with
  | nil => rfl
  | cons a rest ih =>
    have hrest := ih fun b hb => h b (List.mem_cons_of_mem a hb)
    simp [h a List.mem_cons_self, hrest]

end MapQuery
