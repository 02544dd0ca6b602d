import MapQuery.Junction.Connective
import MapQuery.Text.Blank

/-!
# Outlines

The outline of a text is its top-level parenthesis groups and the text between them. Only the
parentheses count: a text has an outline exactly when they balance.
-/

set_option autoImplicit false

namespace MapQuery

/-- A text from some point on, cut at the top-level groups. -/
structure Outline where
  /-- What is left of the group that is open at that point. -/
  openRest : Text
  gap : Text
  /-- The groups after that, each with the text that follows it. -/
  groups : List (Text × Text)
  deriving DecidableEq

namespace Outline

/-- The outline one character of an open group earlier. -/
def extend (c : Char) (o : Outline) : Outline := { o with openRest := c :: o.openRest }

/-- The outline one character of a gap earlier. -/
def widen (c : Char) (o : Outline) : Outline := { o with gap := c :: o.gap }

/-- The outline where the open group starts. -/
def start (o : Outline) : Outline := ⟨[], [], ('(' :: o.openRest, o.gap) :: o.groups⟩

/-- The outline of a text that goes on inside `depth` open parentheses. -/
def ofText? : Nat → Text → Option Outline
  | 0, [] => some ⟨[], [], []⟩
  | _ + 1, [] => none
  | 0, c :: t =>
    if c = '(' then (ofText? 1 t).map start
    else if c = ')' then none
    else (ofText? 0 t).map (widen c)
  | depth + 1, c :: t =>
    if c = '(' then (ofText? (depth + 2) t).map (extend c)
    else if c = ')' then (ofText? depth t).map (extend c)
    else (ofText? (depth + 1) t).map (extend c)

def text (o : Outline) : Text := o.openRest ++ o.gap ++ o.groups.flatMap fun g => g.1 ++ g.2

/-- Outside every parenthesis no group is open. -/
theorem openRest_of_ofText?_zero {t : Text} {o : Outline} (h : ofText? 0 t = some o) :
    o.openRest = [] := by
  induction t generalizing o with
  | nil =>
    obtain rfl := Option.some.inj h
    rfl
  | cons c t ih =>
    simp only [ofText?] at h
    split at h
    · obtain ⟨u, -, rfl⟩ := Option.map_eq_some_iff.1 h
      rfl
    · split at h
      · simp at h
      · obtain ⟨u, hu, rfl⟩ := Option.map_eq_some_iff.1 h
        have := ih hu
        exact this

/-- An outline keeps every character of its text. -/
theorem text_of_ofText? {depth : Nat} {t : Text} {o : Outline} (h : ofText? depth t = some o) :
    o.text = t := by
  fun_induction ofText? depth t generalizing o with
  | case1 =>
    obtain rfl := Option.some.inj h
    rfl
  | case2 => simp at h
  | case3 t ih | case6 d t ih | case7 d t _ ih | case8 d c t _ _ ih =>
    obtain ⟨u, hu, rfl⟩ := Option.map_eq_some_iff.1 h
    simp [text, start, extend, ← ih hu]
  | case4 => simp at h
  | case5 c t _ _ ih =>
    obtain ⟨u, hu, rfl⟩ := Option.map_eq_some_iff.1 h
    have := openRest_of_ofText?_zero hu
    simp [text, widen, ← ih hu, this]

end Outline
end MapQuery
