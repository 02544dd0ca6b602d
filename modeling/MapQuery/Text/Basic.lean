/-!
# Text

Text is a list of characters, one per code point, so that scanning and replacing are recursion on
lists. String literals are accepted wherever text is expected.
-/

set_option autoImplicit false

namespace MapQuery

/-- A text, one element per code point. -/
abbrev Text := List Char

instance : Coe String Text := ⟨String.toList⟩

namespace Text

/-- Decimal digits of a natural number, most significant first. -/
def natural (n : Nat) : Text := Nat.toDigits 10 n

/-- Decimal digits of an integer, with a minus sign below zero. -/
def integer (z : Int) : Text :=
  if z < 0 then '-' :: natural z.natAbs else natural z.natAbs

/-- Digits of a natural number, with zeros in front up to the given width. -/
def padded (width n : Nat) : Text :=
  List.replicate (width - (natural n).length) '0' ++ natural n

/-- The words of a truth value. -/
def truth : Bool → Text
  | true => "true"
  | false => "false"

def paren (t : Text) : Text := '(' :: (t ++ [')'])

/-- The parts with a separator between every two of them. -/
def joined (separator : Text) : List Text → Text
  | [] => []
  | [t] => t
  | t :: u :: rest => t ++ separator ++ joined separator (u :: rest)

/-- Order by code points; a proper beginning comes first. -/
def before : Text → Text → Bool
  | [], [] => false
  | [], _ :: _ => true
  | _ :: _, [] => false
  | c :: s, d :: t => c.toNat < d.toNat || (c == d && before s t)

/-- What is left of a text after the given beginning, if it begins so. -/
def dropBeginning? : Text → Text → Option Text
  | [], t => some t
  | _ :: _, [] => none
  | c :: s, d :: t => if c = d then dropBeginning? s t else none

/-- What is left of a text before the given end, if it ends so. -/
def dropEnd? (tail t : Text) : Option Text :=
  (dropBeginning? tail.reverse t.reverse).map List.reverse

/-- Whether a text occurs within another. -/
def occursIn (part : Text) : Text → Bool
  | [] => part.isEmpty
  | c :: t => (dropBeginning? part (c :: t)).isSome || occursIn part t

/-- What appending keeps holds of a joined text if it holds of the parts and the separator. -/
theorem joined_induction {P : Text → Prop} (hnil : P []) (happend : ∀ s t, P s → P t → P (s ++ t))
    {separator : Text} (hseparator : P separator) {texts : List Text} (h : ∀ t ∈ texts, P t) :
    P (joined separator texts) := by
  fun_induction joined separator texts with
  | case1 => exact hnil
  | case2 t => exact h t List.mem_cons_self
  | case3 t u rest ih =>
    have hrest := ih fun v hv => h v (List.mem_cons_of_mem t hv)
    exact happend _ _ (happend _ _ (h t List.mem_cons_self) hseparator) hrest

theorem dropBeginning?_eq_some_iff {s t r : Text} :
    dropBeginning? s t = some r ↔ t = s ++ r := by
  induction s generalizing t with
  | nil => simp [dropBeginning?, eq_comm]
  | cons c s ih =>
    cases t with
    | nil => simp [dropBeginning?]
    | cons d t =>
      by_cases h : c = d
      · subst h
        simp [dropBeginning?, ih]
      · simp [dropBeginning?, h, Ne.symm h]

theorem dropEnd?_eq_some_iff {s t r : Text} : dropEnd? s t = some r ↔ t = r ++ s := by
  simp only [dropEnd?, Option.map_eq_some_iff, dropBeginning?_eq_some_iff]
  constructor
  · rintro ⟨u, hu, rfl⟩
    simpa using congrArg List.reverse hu
  · rintro rfl
    exact ⟨r.reverse, by simp, by simp⟩

theorem before_trans {s t u : Text} (h : before s t = true) (h' : before t u = true) :
    before s u = true := by
  induction s generalizing t u with
  | nil => cases t <;> cases u <;> simp_all [before]
  | cons c s ih =>
    cases t with
    | nil => simp [before] at h
    | cons d t =>
      cases u with
      | nil => simp [before] at h'
      | cons e u =>
        simp only [before, Bool.or_eq_true, decide_eq_true_eq, Bool.and_eq_true, beq_iff_eq] at *
        rcases h with h | ⟨rfl, h⟩ <;> rcases h' with h' | ⟨rfl, h'⟩
        · exact .inl (Nat.lt_trans h h')
        · exact .inl h
        · exact .inl h'
        · exact .inr ⟨rfl, ih h h'⟩

/-- Of two different texts one comes first. -/
theorem before_of_ne {s t : Text} (h : s ≠ t) (h' : before s t = false) : before t s = true := by
  induction s generalizing t with
  | nil => cases t <;> simp_all [before]
  | cons c s ih =>
    cases t with
    | nil => rfl
    | cons d t =>
      simp only [before, Bool.or_eq_false_iff, decide_eq_false_iff_not, Bool.and_eq_false_iff,
        Bool.or_eq_true, decide_eq_true_eq, Bool.and_eq_true, beq_iff_eq] at *
      by_cases hcd : c = d
      · subst hcd
        refine .inr ⟨rfl, ih (fun hst => h (by rw [hst])) ?_⟩
        simpa using h'.2
      · have : c.toNat ≠ d.toNat := fun e => hcd (Char.toNat_inj.1 e)
        exact .inl (by omega)

theorem not_before_self (t : Text) : before t t = false := by
  induction t with
  | nil => rfl
  | cons c t ih => simp [before, ih]

end Text
end MapQuery
