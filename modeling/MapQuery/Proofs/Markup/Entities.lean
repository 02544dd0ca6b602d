import MapQuery.Text.Markup
import MapQuery.Text.Quotation

/-!
# Entities

Encoded text can be read back: it holds none of the characters that end it in an element or in an
attribute value, and no two texts are encoded alike.
-/

set_option autoImplicit false

namespace MapQuery

/-- A text is cut in one way only into a run of characters of a class and a rest that does not go
on with one. -/
theorem Text.append_inj_of_class {p : Char → Bool} {a b x y : Text} (ha : ∀ c ∈ a, p c = true)
    (hb : ∀ c ∈ b, p c = true) (hx : ∀ c ∈ x.head?, p c = false) (hy : ∀ c ∈ y.head?, p c = false)
    (h : a ++ x = b ++ y) : a = b ∧ x = y := by
  induction a generalizing b with
  | nil =>
    cases b with
    | nil => exact ⟨rfl, h⟩
    | cons d b =>
      have hd := hx d (by rw [← List.nil_append x, h]; rfl)
      rw [hb d List.mem_cons_self] at hd
      cases hd
  | cons c a ih =>
    cases b with
    | nil =>
      have hc := hy c (by rw [← List.nil_append y, ← h]; rfl)
      rw [ha c List.mem_cons_self] at hc
      cases hc
    | cons d b =>
      obtain ⟨rfl, hrest⟩ := List.cons.inj h
      obtain ⟨rfl, hxy⟩ := ih (fun e he => ha e (List.mem_cons_of_mem c he))
        (fun e he => hb e (List.mem_cons_of_mem c he)) hrest
      exact ⟨rfl, hxy⟩

namespace Markup

/-- The characters that are written as entities. -/
def reserved : Text := ['&', '<', '>', '"', '\'']

theorem forall_mem_reserved {p : Char → Prop} :
    (∀ c ∈ reserved, p c) ↔ p '&' ∧ p '<' ∧ p '>' ∧ p '"' ∧ p '\'' := by
  simp only [reserved, List.forall_mem_cons, List.not_mem_nil, false_imp_iff, forall_const,
    and_true]

theorem encodeChar_of_not_mem {c : Char} (h : c ∉ reserved) : encodeChar c = [c] := by
  simp only [reserved, List.mem_cons, List.not_mem_nil, or_false, not_or] at h
  obtain ⟨hamp, hless, hgreater, hquote, hapostrophe⟩ := h
  simp only [encodeChar, hamp, hless, hgreater, hquote, hapostrophe, if_false]

theorem encodeChar_ne_nil (c : Char) : encodeChar c ≠ [] := by
  by_cases hc : c ∈ reserved
  · have hentity : ∀ c ∈ reserved, encodeChar c ≠ [] := by
      rw [forall_mem_reserved]
      decide
    exact hentity c hc
  · rw [encodeChar_of_not_mem hc]
    exact List.cons_ne_nil c []

theorem encode_eq_self {t : Text} (h : ∀ c ∈ t, c ∉ reserved) : encode t = t := by
  induction t with
  | nil => rfl
  | cons c t ih =>
    have hrest := ih fun d hd => h d (List.mem_cons_of_mem c hd)
    change encodeChar c ++ encode t = _
    rw [encodeChar_of_not_mem (h c List.mem_cons_self), hrest]
    rfl

/-- No character is written as a beginning of what another one is written as. -/
theorem eq_of_prefix_encodeChar {c d : Char} (h : encodeChar c <+: encodeChar d) : c = d := by
  have hentity : ∀ e ∈ reserved, ∃ name, encodeChar e = '&' :: name := by
    intro e he
    have hhead : ∀ e ∈ reserved, (encodeChar e).head? = some '&' := by
      rw [forall_mem_reserved]
      decide
    exact List.head?_eq_some_iff.1 (hhead e he)
  by_cases hc : c ∈ reserved <;> by_cases hd : d ∈ reserved
  · have hfree : (reserved.all fun c => reserved.all fun d =>
        (encodeChar c).isPrefixOf (encodeChar d) == (c == d)) = true := by decide
    have hsame := List.all_eq_true.1 (List.all_eq_true.1 hfree c hc) d hd
    rw [List.isPrefixOf_iff_prefix.2 h] at hsame
    simpa using hsame
  · obtain ⟨name, hname⟩ := hentity c hc
    rw [hname, encodeChar_of_not_mem hd, List.cons_prefix_cons] at h
    rw [← h.1] at hd
    exact absurd (by decide) hd
  · obtain ⟨name, hname⟩ := hentity d hd
    rw [hname, encodeChar_of_not_mem hc, List.cons_prefix_cons] at h
    rw [h.1] at hc
    exact absurd (by decide) hc
  · rw [encodeChar_of_not_mem hc, encodeChar_of_not_mem hd, List.cons_prefix_cons] at h
    exact h.1

theorem encode_injective : Function.Injective encode := by
  intro s t h
  induction s generalizing t with
  | nil =>
    cases t with
    | nil => rfl
    | cons d t => exact absurd (List.append_eq_nil_iff.1 h.symm).1 (encodeChar_ne_nil d)
  | cons c s ih =>
    cases t with
    | nil => exact absurd (List.append_eq_nil_iff.1 h).1 (encodeChar_ne_nil c)
    | cons d t =>
      have h' : encodeChar c ++ encode s = encodeChar d ++ encode t := h
      have hprefix := List.prefix_or_prefix_of_prefix (List.prefix_append (encodeChar c) (encode s))
        (h' ▸ List.prefix_append (encodeChar d) (encode t))
      obtain rfl : c = d := by
        rcases hprefix with hcd | hdc
        · exact eq_of_prefix_encodeChar hcd
        · exact (eq_of_prefix_encodeChar hdc).symm
      rw [ih (List.append_cancel_left h')]

/-- The characters that end a text in markup. -/
def isEnd (c : Char) : Bool := c == '<' || c == '>' || c == '"'

theorem isEnd_head? {c : Char} {t : Text} (h : isEnd c = true) :
    ∀ d ∈ (c :: t).head?, isEnd d = true := by
  intro d hd
  obtain rfl : c = d := by simpa using hd
  exact h

theorem not_isEnd_of_mem_encode {t : Text} : ∀ c ∈ encode t, isEnd c = false := by
  have hchar : ∀ d : Char, ∀ c ∈ encodeChar d, isEnd c = false := by
    intro d c hc
    by_cases hd : d ∈ reserved
    · have hentity : ∀ d ∈ reserved, (encodeChar d).any isEnd = false := by
        rw [forall_mem_reserved]
        decide
      simpa using List.any_eq_false.1 (hentity d hd) c hc
    · rw [encodeChar_of_not_mem hd, List.mem_singleton] at hc
      subst hc
      rw [Bool.eq_false_iff]
      intro hend
      simp only [isEnd, Bool.or_eq_true, beq_iff_eq] at hend
      rcases hend with (rfl | rfl) | rfl <;> exact hd (by decide)
  intro c hc
  obtain ⟨d, -, hd⟩ := List.mem_flatMap.1 hc
  exact hchar d c hd

theorem encode_append_inj {s t x y : Text} (hx : ∀ c ∈ x.head?, isEnd c = true)
    (hy : ∀ c ∈ y.head?, isEnd c = true) (h : encode s ++ x = encode t ++ y) : s = t ∧ x = y := by
  have hcut := Text.append_inj_of_class (p := fun c => !isEnd c)
    (fun c hc => by simp [not_isEnd_of_mem_encode c hc])
    (fun c hc => by simp [not_isEnd_of_mem_encode c hc])
    (fun c hc => by simp [hx c hc]) (fun c hc => by simp [hy c hc]) h
  exact ⟨encode_injective hcut.1, hcut.2⟩

/-- Encoding does not see the stand-ins of parentheses. -/
theorem restore_encode (t : Text) :
    Quotation.restore (encode t) = encode (Quotation.restore t) := by
  have hchar : ∀ c, Quotation.restore (encodeChar c) = encodeChar (Quotation.restoreChar c) := by
    intro c
    by_cases hc : c ∈ reserved
    · have hentity : ∀ c ∈ reserved, Quotation.restore (encodeChar c) =
          encodeChar (Quotation.restoreChar c) := by
        rw [forall_mem_reserved]
        decide
      exact hentity c hc
    · have hrestored : Quotation.restoreChar c ∉ reserved := by
        unfold Quotation.restoreChar
        split
        · decide
        · split
          · decide
          · exact hc
      rw [encodeChar_of_not_mem hc, encodeChar_of_not_mem hrestored]
      rfl
  induction t with
  | nil => rfl
  | cons c t ih =>
    change Quotation.restore (encodeChar c ++ encode t) =
      encodeChar (Quotation.restoreChar c) ++ encode (Quotation.restore t)
    rw [Quotation.restore_append, hchar, ih]

end Markup
end MapQuery
