import MapQuery.Proofs.Markup.Spelling

/-!
# Searching markup

A text search for the beginning of an element finds it only where an element has such a name: no
text and no attribute value can look like one.
-/

set_option autoImplicit false

namespace MapQuery

theorem Text.isSome_dropBeginning? {s t : Text} : (dropBeginning? s t).isSome = true ↔ s <+: t := by
  rw [Option.isSome_iff_exists]
  constructor
  · rintro ⟨r, hr⟩
    exact ⟨r, (dropBeginning?_eq_some_iff.1 hr).symm⟩
  · rintro ⟨r, hr⟩
    exact ⟨r, dropBeginning?_eq_some_iff.2 hr.symm⟩

theorem Text.occursIn_iff {part t : Text} : occursIn part t = true ↔ part <:+: t := by
  induction t with
  | nil => rw [occursIn, List.isEmpty_iff, List.infix_nil]
  | cons c t ih =>
    rw [occursIn, Bool.or_eq_true, isSome_dropBeginning?, ih, List.infix_cons_iff]

namespace Markup

variable {w : Text}

theorem infix_of_infix_append {x y : Text} (hx : '<' ∉ x) (h : '<' :: w <:+: x ++ y) :
    '<' :: w <:+: y := by
  induction x with
  | nil => exact h
  | cons c x ih =>
    rw [List.mem_cons, not_or] at hx
    rcases List.infix_cons_iff.1 h with hprefix | hfound
    · exact absurd (List.cons_prefix_cons.1 hprefix).1 hx.1
    · exact ih hx.2 hfound

theorem prefix_of_prefix_tag {name : Text} {as : List (Text × Text)} {x : Text}
    (hw : isName w = true) (hx : EndsTag x) (h : '<' :: w <+: tagText name as ++ x) :
    w <+: name := by
  rw [tagText_append, List.cons_prefix_cons] at h
  rcases List.prefix_or_prefix_of_prefix h.2 (List.prefix_append name _) with hname | ⟨v, rfl⟩
  · exact hname
  · cases v with
    | nil => exact ⟨[], by simp⟩
    | cons c v =>
      have hrest := (List.prefix_append_right_inj name).1 h.2
      have hc := isNameChar_of_isName hw c (by simp)
      obtain ⟨u, hu⟩ := hrest
      rw [head?_attributes hx c (by rw [← hu]; rfl)] at hc
      cases hc

theorem not_mem_of_isName {name : Text} (h : isName name = true) : '<' ∉ name := fun hmem =>
  absurd (isNameChar_of_isName h '<' hmem) (by decide)

theorem not_mem_encode (t : Text) : '<' ∉ encode t := fun hmem =>
  absurd (not_isEnd_of_mem_encode '<' hmem) (by decide)

theorem not_mem_attributes {as : List (Text × Text)} (h : ∀ a ∈ as, isName a.1 = true) :
    '<' ∉ as.flatMap attributeText := by
  intro hmem
  obtain ⟨a, ha, hmem⟩ := List.mem_flatMap.1 hmem
  simp only [attributeText, List.mem_append] at hmem
  rcases hmem with (((hmem | hmem) | hmem) | hmem) | hmem
  · exact absurd hmem (by decide)
  · exact not_mem_of_isName (h a ha) hmem
  · exact absurd hmem (by decide)
  · exact not_mem_encode a.2 hmem
  · exact absurd hmem (by decide)

/-- A tag whose name does not begin so holds no such beginning. -/
theorem infix_of_infix_tag {name : Text} {as : List (Text × Text)} {x : Text}
    (hw : isName w = true) (htag : IsTag name as) (hname : ¬ w <+: name) (hx : EndsTag x)
    (h : '<' :: w <:+: tagText name as ++ x) : '<' :: w <:+: x := by
  rw [tagText_append] at h
  rcases List.infix_cons_iff.1 h with hprefix | hfound
  · rw [← tagText_append] at hprefix
    exact absurd (prefix_of_prefix_tag hw hx hprefix) hname
  · exact infix_of_infix_append (not_mem_attributes htag.keyed)
      (infix_of_infix_append (not_mem_of_isName htag.named) hfound)

theorem infix_of_infix_close {name x : Text} (hw : isName w = true) (hname : isName name = true)
    (h : '<' :: w <:+: '<' :: '/' :: (name ++ '>' :: x)) : '<' :: w <:+: x := by
  rcases List.infix_cons_iff.1 h with hprefix | hfound
  · cases w with
    | nil => cases hw
    | cons c w =>
      have hc := (List.cons_prefix_cons.1 (List.cons_prefix_cons.1 hprefix).2).1
      exact absurd (isNameChar_of_isName hw c List.mem_cons_self) (by rw [hc]; decide)
  · have hx : '<' ∉ ('/' :: name) ++ ['>'] := by
      simp only [List.mem_append, List.mem_cons, List.not_mem_nil, or_false, not_or]
      exact ⟨⟨by decide, not_mem_of_isName hname⟩, by decide⟩
    exact infix_of_infix_append hx (by simpa using hfound)

namespace Spells

theorem infix_of_infix_append {s r : Text} {ts : List Tree} (hw : isName w = true)
    (h : Spells s ts) (hnames : ∀ n ∈ Tree.namesOfList ts, ¬ w <+: n)
    (hfound : '<' :: w <:+: s ++ r) : '<' :: w <:+: r := by
  have hgreater : '<' ∉ ['>'] := by decide
  -- What an element holds is followed by its closing tag, so the rest has to vary.
  induction h generalizing r with
  | nil => exact hfound
  | element htag hinner hs ihinner ih =>
    simp only [Tree.namesOfList, Tree.names, List.mem_append, List.mem_cons] at hnames
    rw [List.append_assoc, element_append] at hfound
    have hcontent :=
      infix_of_infix_tag hw htag (hnames _ (Or.inl (Or.inl rfl))) (endsTag_greater _) hfound
    have hclose := ihinner (fun n hn => hnames n (Or.inl (Or.inr hn)))
      (Markup.infix_of_infix_append hgreater hcontent)
    exact ih (fun n hn => hnames n (Or.inr hn)) (infix_of_infix_close hw htag.named hclose)
  | chars htag ht hs ih =>
    simp only [Tree.namesOfList, Tree.names, List.mem_append, List.mem_cons] at hnames
    rw [List.append_assoc, element_append] at hfound
    have hcontent :=
      infix_of_infix_tag hw htag (hnames _ (Or.inl (Or.inl rfl))) (endsTag_greater _) hfound
    have hclose := Markup.infix_of_infix_append (not_mem_encode _)
      (Markup.infix_of_infix_append hgreater hcontent)
    exact ih (fun n hn => hnames n (Or.inr hn)) (infix_of_infix_close hw htag.named hclose)
  | lone htag hs ih =>
    simp only [Tree.namesOfList, Tree.names, List.mem_append, List.mem_cons] at hnames
    rw [List.append_assoc, List.append_assoc] at hfound
    have hend := infix_of_infix_tag hw htag (hnames _ (Or.inl (Or.inl rfl))) (endsTag_lone _) hfound
    exact ih (fun n hn => hnames n (Or.inr hn)) (Markup.infix_of_infix_append (by decide) hend)

/-- No element is found in markup by a beginning that none of its names has. -/
theorem occursIn_eq_false {s : Text} {ts : List Tree} (hw : isName w = true) (h : Spells s ts)
    (hnames : ∀ n ∈ Tree.namesOfList ts, ¬ w <+: n) : Text.occursIn ('<' :: w) s = false := by
  rw [Bool.eq_false_iff]
  intro hoccurs
  have hfound := Text.occursIn_iff.1 hoccurs
  rw [← List.append_nil s] at hfound
  exact absurd (h.infix_of_infix_append hw hnames hfound) (by simp)

end Spells

end Markup
end MapQuery
