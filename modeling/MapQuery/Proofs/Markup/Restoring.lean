import MapQuery.Proofs.Markup.Spelling

/-!
# Restoring markup

Putting parentheses back for their stand-ins changes what markup says in its texts and attribute
values only.
-/

set_option autoImplicit false

namespace MapQuery.Markup

open Quotation (restore restoreChar)

namespace Tree

mutual

theorem names_mapText (f : Text → Text) : ∀ t : Tree, (t.mapText f).names = t.names
  | .element name _ content => congrArg (name :: ·) (namesOfList_mapText f content)
  | .chars _ => rfl

theorem namesOfList_mapText (f : Text → Text) :
    ∀ ts : List Tree, namesOfList (mapTextOfList f ts) = namesOfList ts
  | [] => rfl
  | t :: rest => by
    rw [mapTextOfList, namesOfList, namesOfList, names_mapText f t, namesOfList_mapText f rest]

end

end Tree

theorem restore_of_isName {t : Text} (h : isName t = true) : restore t = t := by
  have hchar : ∀ c ∈ t, restoreChar c = c := by
    intro c hc
    have hname := isNameChar_of_isName h c hc
    have hopen : c ≠ Quotation.shieldedOpen := by
      rintro rfl
      exact absurd hname (by decide)
    have hclose : c ≠ Quotation.shieldedClose := by
      rintro rfl
      exact absurd hname (by decide)
    rw [restoreChar, if_neg hopen, if_neg hclose]
  exact (List.map_congr_left hchar).trans (List.map_id t)

theorem restore_attributes {as : List (Text × Text)} (h : ∀ a ∈ as, isName a.1 = true) :
    restore (as.flatMap attributeText) =
      (as.map fun a => (a.1, restore a.2)).flatMap attributeText := by
  induction as with
  | nil => rfl
  | cons a as ih =>
    have hattribute : restore (attributeText a) = attributeText (a.1, restore a.2) := by
      simp only [attributeText, Quotation.restore_append, restore_encode,
        restore_of_isName (h a List.mem_cons_self)]
      rfl
    rw [List.flatMap_cons, Quotation.restore_append, hattribute,
      ih fun b hb => h b (List.mem_cons_of_mem a hb)]
    rfl

theorem restore_tagText {name : Text} {as : List (Text × Text)} (h : IsTag name as) :
    restore (tagText name as) = tagText name (as.map fun a => (a.1, restore a.2)) := by
  change '<' :: restore (name ++ as.flatMap attributeText) = _
  rw [Quotation.restore_append, restore_of_isName h.named, restore_attributes h.keyed]
  rfl

theorem restore_element {name : Text} {as : List (Text × Text)} (h : IsTag name as)
    (inner : Text) : restore (element name as inner) =
      element name (as.map fun a => (a.1, restore a.2)) (restore inner) := by
  simp only [element, Quotation.restore_append, restore_of_isName h.named,
    restore_attributes h.keyed]
  rfl

theorem IsTag.mapText {name : Text} {as : List (Text × Text)} (h : IsTag name as)
    (f : Text → Text) : IsTag name (as.map fun a => (a.1, f a.2)) where
  named := h.named
  keyed := by
    intro a ha
    obtain ⟨b, hb, rfl⟩ := List.mem_map.1 ha
    exact h.keyed b hb
  distinct := by
    rw [List.map_map]
    exact h.distinct

/-- Restored markup spells the restored trees. -/
theorem Spells.restore {s : Text} {ts : List Tree} (h : Spells s ts) :
    Spells (Quotation.restore s) (Tree.mapTextOfList Quotation.restore ts) := by
  induction h with
  | nil => exact .nil
  | element htag hinner _ ihinner ih =>
    rw [Quotation.restore_append, restore_element htag]
    exact .element (htag.mapText _) ihinner ih
  | @chars name t s as ts htag ht _ ih =>
    have hne : Quotation.restore t ≠ [] := fun h => ht (List.map_eq_nil_iff.1 h)
    rw [Quotation.restore_append, restore_element htag, restore_encode]
    exact .chars (htag.mapText _) hne ih
  | lone htag _ ih =>
    rw [Quotation.restore_append, Quotation.restore_append, restore_tagText htag]
    exact .lone (htag.mapText _) ih

end MapQuery.Markup
