import MapQuery.Junction.Connective
import MapQuery.Text.Blank

/-!
# Reading predicate texts

How the languages of data sources understand a predicate text, said without regard to how such
texts are put together. What stands between single quotes is opaque, and a quote written twice does
not end it. Groups with AND or OR between every two of them are joined, AND before OR; NOT in front
of a group negates it; whatever else stands in parentheses, or alone, is a leaf.
-/

set_option autoImplicit false

namespace MapQuery

/-- A predicate as it is understood. -/
inductive Predicate where
  | leaf (text : Text)
  | not (p : Predicate)
  | join (op : Connective) (p q : Predicate)
  deriving DecidableEq

/-- The truth of a conjunction or disjunction. -/
def Connective.holds (op : Connective) (truths : List Bool) : Bool :=
  match op with
  | .and => truths.all id
  | .or => truths.any id

namespace Connective

@[simp] theorem holds_singleton (op : Connective) (b : Bool) : op.holds [b] = b := by
  cases op <;> simp [holds]

theorem holds_append (op : Connective) (s t : List Bool) :
    op.holds (s ++ t) = op.holds [op.holds s, op.holds t] := by
  cases op <;> simp [holds]

/-- The truth of a conjunction or disjunction of parts some of which may say nothing. -/
def holds? (op : Connective) (parts : List (Option Bool)) : Option Bool :=
  match parts.filterMap id with
  | [] => none
  | truths => some (op.holds truths)

theorem getD_holds?_and (os : List (Option Bool)) :
    (Connective.and.holds? os).getD true = os.all (·.getD true) := by
  have hall : os.all (·.getD true) = (os.filterMap id).all id := by
    induction os with
    | nil => rfl
    | cons o os ih => cases o <;> simp [ih]
  rw [hall]
  unfold holds?
  split
  · next hnil =>
    rw [hnil]
    rfl
  · rfl

theorem getD_holds?_or {α : Type} (f : α → Bool) (list : List α) :
    (Connective.or.holds? (list.map fun a => some (f a))).getD true =
      (list.isEmpty || list.any f) := by
  cases list with
  | nil => rfl
  | cons a list => simp [holds?, holds, List.filterMap_map]

end Connective

namespace Predicate

/-- The truth of a predicate, given that of its leaves. -/
def holds (v : Text → Bool) : Predicate → Bool
  | .leaf t => v t
  | .not p => !p.holds v
  | .join op p q => op.holds [p.holds v, q.holds v]

/-- One or more predicates joined by OR. -/
def anyOf (p : Predicate) : List Predicate → Predicate
  | [] => p
  | q :: rest => .join .or p (anyOf q rest)

theorem holds_anyOf (v : Text → Bool) (p : Predicate) (rest : List Predicate) :
    (anyOf p rest).holds v = ((p :: rest).any fun q => q.holds v) := by
  induction rest generalizing p with
  | nil => simp [anyOf]
  | cons q rest ih => simp [anyOf, holds, Connective.holds, ih q]

end Predicate

/-- A group in its parentheses and what it means. -/
structure Group where
  text : Text
  meaning : Predicate

/-- What stands in one pair of parentheses, from some point on: the text up to the next group, and
the groups after that, each with the text that follows it. -/
structure Level where
  gap : Text
  groups : List (Group × Text)

namespace Level

def empty : Level := ⟨[], []⟩

def text (l : Level) : Text := l.gap ++ l.groups.flatMap fun g => g.1.text ++ g.2

/-- Groups with a keyword in every gap between them: the conjunction that comes first, and those
after it, which are the other sides of the ORs. -/
def run? : List (Group × Text) → Option (Predicate × List Predicate)
  | [] => none
  | [(g, gap)] => if Text.blank gap then some (g.meaning, []) else none
  | (g, gap) :: next :: rest =>
    match Connective.ofKeyword? (Text.trim gap), run? (next :: rest) with
    | some .and, some (p, more) => some (.join .and g.meaning p, more)
    | some .or, some (p, more) => some (g.meaning, p :: more)
    | _, _ => none

/-- The group that NOT stands in front of, if there is nothing else. -/
def negated? (l : Level) : Option Group :=
  match l.groups with
  | [(g, gap)] =>
    if Text.sameLetters (Text.trim l.gap) "NOT" ∧ Text.blank gap then some g else none
  | _ => none

def meaning (l : Level) : Predicate :=
  match if Text.blank l.gap then run? l.groups else none with
  | some (p, more) => Predicate.anyOf p more
  | none =>
    match l.negated? with
    | some g => .not g.meaning
    | none => .leaf (Text.trim l.text)

def group (l : Level) : Group := ⟨Text.paren l.text, l.meaning⟩

/-- The level one character earlier. -/
def widen (c : Char) (l : Level) : Level := { l with gap := c :: l.gap }

/-- The level where a group starts that is followed by another level. -/
def before (g : Group) (l : Level) : Level := ⟨[], (g, l.gap) :: l.groups⟩

end Level

/-- The levels that are open at some point of a text, the innermost first, from there on. -/
abbrev Levels := Level × List Level

namespace Levels

/-- The levels one character of the innermost one earlier. -/
def widen (c : Char) (ls : Levels) : Levels := (ls.1.widen c, ls.2)

/-- The levels where the innermost one is opened. -/
def opened : Levels → Option Levels
  | (_, []) => none
  | (inner, outer :: rest) => some (outer.before inner.group, rest)

/-- The levels where the innermost one was closed. -/
def closed (ls : Levels) : Levels := (.empty, ls.1 :: ls.2)

/-- The levels that a text goes on with, inside quotes or outside; there are none if a quote or a
group that it opens stays open. -/
def ofText? : (quoted : Bool) → Text → Option Levels
  | quoted, [] => if quoted then none else some (.empty, [])
  | true, c :: t => (ofText? (c != '\'') t).map (widen c)
  | false, c :: t =>
    if c = '(' then (ofText? false t).bind opened
    else if c = ')' then (ofText? false t).map closed
    else (ofText? (c == '\'') t).map (widen c)

end Levels

/-- The level of a whole text, whose parentheses and quotes have to match. -/
def Level.ofText? (t : Text) : Option Level :=
  match Levels.ofText? false t with
  | some (l, []) => some l
  | _ => none

def Predicate.ofText? (t : Text) : Option Predicate := (Level.ofText? t).map Level.meaning

end MapQuery
