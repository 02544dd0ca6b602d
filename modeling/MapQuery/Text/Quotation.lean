import MapQuery.Text.Basic

/-!
# Quotations

A quoted literal stands between single quotes with every quote inside it written twice. While
predicates are put together its parentheses are shielded by two private characters, so that every
parenthesis a scan meets belongs to the structure; they are restored in the finished text.
-/

set_option autoImplicit false

namespace MapQuery.Quotation

/-- Stands for an opening parenthesis of a literal. -/
def shieldedOpen : Char := '\ue000'

/-- Stands for a closing parenthesis of a literal. -/
def shieldedClose : Char := '\ue001'

/-- A parenthesis becomes its private stand-in. -/
def shieldChar (c : Char) : Char :=
  if c = '(' then shieldedOpen else if c = ')' then shieldedClose else c

/-- A private stand-in becomes its parenthesis. -/
def restoreChar (c : Char) : Char :=
  if c = shieldedOpen then '(' else if c = shieldedClose then ')' else c

/-- The text with its parentheses shielded. -/
def shield (t : Text) : Text := t.map shieldChar

/-- The text with shielded parentheses put back. -/
def restore (t : Text) : Text := t.map restoreChar

/-- The text with every single quote written twice. -/
def doubled (t : Text) : Text := t.flatMap fun c => if c = '\'' then ['\'', '\''] else [c]

def quote (t : Text) : Text := '\'' :: (shield (doubled t) ++ ['\''])

@[simp] theorem restore_append (s t : Text) : restore (s ++ t) = restore s ++ restore t :=
  List.map_append

/-- Restoring undoes shielding on text without the private characters. -/
theorem restore_shield {t : Text} (ho : shieldedOpen ∉ t) (hc : shieldedClose ∉ t) :
    restore (shield t) = t := by
  induction t with
  | nil => rfl
  | cons c t ih =>
    simp only [List.mem_cons, not_or] at ho hc
    have hrest := ih ho.2 hc.2
    simp only [shield, restore, List.map_cons, List.cons.injEq] at hrest ⊢
    refine ⟨?_, hrest⟩
    by_cases h₁ : c = '('
    · simp [shieldChar, restoreChar, h₁]
    · by_cases h₂ : c = ')'
      · subst h₂
        decide
      · simp [shieldChar, restoreChar, h₁, h₂, Ne.symm ho.1, Ne.symm hc.1]

end MapQuery.Quotation
