import Mathlib.Data.List.Induction
import MapQuery.Proofs.Predicate.Literals
import MapQuery.Proofs.Predicate.Segments

/-!
# Quotations in merged texts

A quotation holds no parentheses while texts are put together, and no gap between groups holds a
quote. So a merge neither cuts a quotation nor drops one, whatever else its texts hold.
-/

set_option autoImplicit false

namespace MapQuery

namespace Quotation

/-! ## Reading a quotation -/

/-- The text up to the quote that ends a quotation, two quotes being one, and the text after it. -/
def unquote? : Text → Option (Text × Text)
  | [] => none
  | [c] => if c = '\'' then some ([], []) else none
  | c :: d :: t =>
    if c = '\'' then
      if d = '\'' then (unquote? t).map fun r => ('\'' :: r.1, r.2) else some ([], d :: t)
    else (unquote? (d :: t)).map fun r => (c :: r.1, r.2)

example : unquote? "it''s') OR" = some ("it's".toList, ") OR".toList) := by decide

theorem unquote?_cons_of_ne {c : Char} (h : c ≠ '\'') (t : Text) :
    unquote? (c :: t) = (unquote? t).map fun r => (c :: r.1, r.2) := by
  cases t with
  | nil => simp [unquote?, h]
  | cons d t => simp [unquote?, h]

theorem doubled_cons_quote (s : Text) : doubled ('\'' :: s) = '\'' :: '\'' :: doubled s := rfl

theorem doubled_cons_of_ne {c : Char} (h : c ≠ '\'') (s : Text) :
    doubled (c :: s) = c :: doubled s := by
  simp [doubled, h]

/-- A quotation is read back, and ends at its last quote. -/
theorem unquote?_doubled (s : Text) {t : Text} (ht : t.head? ≠ some '\'') :
    unquote? (doubled s ++ '\'' :: t) = some (s, t) := by
  induction s with
  | nil =>
    cases t with
    | nil => rfl
    | cons c t =>
      have hc : c ≠ '\'' := fun hc => ht (congrArg some hc)
      simp [doubled, unquote?, hc]
  | cons c s ih =>
    by_cases hc : c = '\''
    · subst hc
      simp only [doubled_cons_quote, List.cons_append, unquote?, if_true, ih]
      rfl
    · rw [doubled_cons_of_ne hc, List.cons_append, unquote?_cons_of_ne hc, ih]
      rfl

theorem literalsFrom_inside_doubled (s : Text) {t : Text} (ht : t.head? ≠ some '\'') :
    literalsFrom .inside (doubled s ++ '\'' :: t) = (doubled s, literals t) := by
  induction s with
  | nil =>
    cases t with
    | nil => rfl
    | cons c t =>
      have hc : c ≠ '\'' := fun hc => ht (congrArg some hc)
      simp [doubled, literalsFrom, literals, hc]
  | cons c s ih =>
    by_cases hc : c = '\''
    · subst hc
      simp [doubled_cons_quote, literalsFrom, ih]
    · simp [doubled_cons_of_ne hc, literalsFrom, hc, ih]

/-- A quotation is one literal. -/
theorem literals_quotation (s : Text) {t : Text} (ht : t.head? ≠ some '\'') :
    literals ('\'' :: (doubled s ++ '\'' :: t)) = doubled s :: literals t := by
  simp [literals, literalsFrom, literalsFrom_inside_doubled s ht]

/-! ## Restoring a quotation -/

theorem restoreChar_shieldChar (c : Char) : restoreChar (shieldChar c) = restoreChar c := by
  unfold shieldChar
  split
  · next h => rw [h]; rfl
  · split
    · next h => rw [h]; rfl
    · rfl

theorem restore_shield_eq (t : Text) : restore (shield t) = restore t := by
  rw [restore, shield, List.map_map]
  exact List.map_congr_left fun c _ => restoreChar_shieldChar c

theorem restore_doubled (t : Text) : restore (doubled t) = doubled (restore t) := by
  induction t with
  | nil => rfl
  | cons c t ih =>
    by_cases hc : c = '\''
    · subst hc
      exact congrArg (fun u => '\'' :: '\'' :: u) ih
    · rw [doubled_cons_of_ne hc]
      exact (congrArg (restoreChar c :: ·) ih).trans
        (doubled_cons_of_ne (restoreChar_ne_quote hc) (restore t)).symm

theorem restore_quote (s : Text) : restore (quote s) = '\'' :: (doubled (restore s) ++ ['\'']) := by
  have hshield : restore (shield (doubled s)) = doubled (restore s) := by
    rw [restore_shield_eq, restore_doubled]
  rw [← hshield]
  exact congrArg ('\'' :: ·) (restore_append (shield (doubled s)) ['\''])

/-- Restoring changes the private characters and nothing else. -/
theorem restore_eq_self_iff {t : Text} :
    restore t = t ↔ shieldedOpen ∉ t ∧ shieldedClose ∉ t := by
  constructor
  · intro h
    rw [← h]
    have hchar : ∀ c, restoreChar c ≠ shieldedOpen ∧ restoreChar c ≠ shieldedClose := by
      intro c
      unfold restoreChar
      split
      · decide
      · split
        · decide
        · next hopen hclose => exact ⟨hopen, hclose⟩
    constructor
    · intro hmem
      obtain ⟨c, -, hc⟩ := List.mem_map.1 hmem
      exact (hchar c).1 hc
    · intro hmem
      obtain ⟨c, -, hc⟩ := List.mem_map.1 hmem
      exact (hchar c).2 hc
  · rintro ⟨hopen, hclose⟩
    rw [← restore_shield_eq]
    exact restore_shield hopen hclose

theorem map_restoreChar_ne {o : Option Char} (h : o ≠ some '\'') :
    o.map restoreChar ≠ some '\'' := by
  cases o with
  | none => simp
  | some c =>
    intro hquote
    exact restoreChar_ne_quote (fun hc => h (congrArg some hc)) (Option.some.inj hquote)

theorem head?_restore_ne {t : Text} (h : t.head? ≠ some '\'') :
    (restore t).head? ≠ some '\'' := by
  rw [restore, List.head?_map]
  exact map_restoreChar_ne h

theorem getLast?_restore_ne {t : Text} (h : t.getLast? ≠ some '\'') :
    (restore t).getLast? ≠ some '\'' := by
  rw [restore, List.getLast?_map]
  exact map_restoreChar_ne h

theorem unquoted_restore {t : Text} (h : '\'' ∉ t) : '\'' ∉ restore t := by
  intro hmem
  obtain ⟨c, hc, hquote⟩ := List.mem_map.1 hmem
  exact restoreChar_ne_quote (fun h' => h (h' ▸ hc)) hquote

/-! ## Quotations among other characters -/

/-- The quotations that stand in a text one after another, whatever is between them. No quote stands
right before one or right after one. -/
inductive Carries (P : Char → Prop) : List Text → Text → Prop where
  | plain {t : Text} : (∀ c ∈ t, P c) → Carries P [] t
  | quoted {u t : Text} {ss : List Text} (s : Text) : (∀ c ∈ u, P c) →
      u.getLast? ≠ some '\'' → t.head? ≠ some '\'' → Carries P ss t →
      Carries P (s :: ss) (u ++ (quote s ++ t))

namespace Carries

variable {P : Char → Prop} {ss ss' : List Text} {s t u : Text} {c : Char}

theorem nil : Carries P [] [] := .plain (by simp)

theorem quote (s : Text) : Carries P [s] (quote s) := by
  have h := Carries.quoted (P := P) (u := []) s (by simp) (by simp) (by simp) nil
  rwa [List.nil_append, List.append_nil] at h

theorem prepend (hu : ∀ c ∈ u, P c) (hlast : u.getLast? ≠ some '\'') (h : Carries P ss t) :
    Carries P ss (u ++ t) := by
  cases h with
  | plain ht => exact .plain (List.forall_mem_append.2 ⟨hu, ht⟩)
  | @quoted v t ss s hv hvlast ht hrest =>
    rw [← List.append_assoc]
    refine .quoted s (List.forall_mem_append.2 ⟨hu, hv⟩) ?_ ht hrest
    rw [List.getLast?_append]
    cases hend : v.getLast? with
    | none => exact hlast
    | some d => rwa [hend] at hvlast

theorem head?_append_ne (hs : s.head? ≠ some '\'') (ht : t.head? ≠ some '\'') :
    (s ++ t).head? ≠ some '\'' := by
  cases s with
  | nil => exact ht
  | cons d s => exact hs

theorem append (hs : Carries P ss s) (ht : Carries P ss' t) (hhead : t.head? ≠ some '\'') :
    Carries P (ss ++ ss') (s ++ t) := by
  induction hs with
  | @plain s hs =>
    cases ht with
    | plain ht => exact .plain (List.forall_mem_append.2 ⟨hs, ht⟩)
    | @quoted v t ss q hv hvlast ht hrest =>
      have hne : v ≠ [] := by
        rintro rfl
        exact hhead rfl
      rw [← List.append_assoc]
      refine .quoted q (List.forall_mem_append.2 ⟨hs, hv⟩) ?_ ht hrest
      rwa [List.getLast?_append_of_ne_nil s hne]
  | quoted q hu hlast hafter _ ih =>
    rw [List.append_assoc, List.append_assoc, List.cons_append]
    exact .quoted q hu hlast (head?_append_ne hafter hhead) ih

/-- Only quotations begin with a quote, so what stands before one can be dropped. -/
theorem of_cons (hc : c ≠ '\'') (h : Carries P ss (c :: t)) : Carries P ss t := by
  generalize hx : c :: t = x at h
  cases h with
  | plain hx' =>
    subst hx
    exact .plain fun d hd => hx' d (List.mem_cons_of_mem c hd)
  | @quoted u t' ss s hu hlast hafter hrest =>
    cases u with
    | nil => exact absurd (List.cons.inj hx).1 hc
    | cons d u =>
      obtain rfl := (List.cons.inj hx).2
      refine .quoted s (fun e he => hu e (List.mem_cons_of_mem d he)) ?_ hafter hrest
      cases u with
      | nil => simp
      | cons e u => simpa using hlast

theorem of_concat (hc : c ≠ '\'') (h : Carries P ss (t ++ [c])) : Carries P ss t := by
  generalize hx : t ++ [c] = x at h
  induction h generalizing t with
  | plain hx' =>
    subst hx
    exact .plain fun d hd => hx' d (List.mem_append_left _ hd)
  | @quoted u t' ss s hu hlast hafter hrest ih =>
    rcases List.eq_nil_or_concat t' with rfl | ⟨v, d, rfl⟩
    · have hquote : t ++ [c] = (u ++ '\'' :: shield (doubled s)) ++ ['\''] := by
        simp [hx, Quotation.quote]
      exact absurd (List.singleton_injective (List.append_inj' hquote rfl).2) hc
    · rw [List.concat_eq_append, ← List.append_assoc, ← List.append_assoc] at hx
      obtain ⟨rfl, hd⟩ := List.append_inj' hx rfl
      rw [List.append_assoc]
      refine .quoted s hu hlast ?_ (ih (by rw [List.concat_eq_append, hd]))
      cases v with
      | nil => simp
      | cons e v => simpa using hafter

theorem of_unquoted_append (hs : '\'' ∉ s) (h : Carries P ss (s ++ t)) : Carries P ss t := by
  induction s with
  | nil => exact h
  | cons c s ih =>
    rw [List.mem_cons, not_or] at hs
    exact ih hs.2 (h.of_cons (Ne.symm hs.1))

theorem of_append_unquoted (ht : '\'' ∉ t) (h : Carries P ss (s ++ t)) : Carries P ss s := by
  induction t using List.reverseRecOn with
  | nil => rwa [List.append_nil] at h
  | append_singleton t c ih =>
    rw [List.mem_append, not_or] at ht
    rw [← List.append_assoc] at h
    exact ih ht.1 (h.of_concat fun hc => ht.2 (hc ▸ List.mem_singleton_self _))

theorem trim (h : Carries P ss t) : Carries P ss (Text.trim t) := by
  obtain ⟨a, b, ha, hb, ht⟩ := Text.exists_trim t
  rw [ht] at h
  exact (h.of_append_unquoted (unquoted_of_blank hb)).of_unquoted_append (unquoted_of_blank ha)

theorem eq_nil_of_unquoted (ht : '\'' ∉ t) (h : Carries P ss t) : ss = [] := by
  cases h with
  | plain => rfl
  | quoted => simp [Quotation.quote] at ht

/-- A parenthesis stands in no quotation. -/
theorem split {b : Char} (hb : b = '(' ∨ b = ')') (h : Carries P ss (s ++ b :: t)) :
    ∃ ss₁ ss₂, ss = ss₁ ++ ss₂ ∧ Carries P ss₁ s ∧ Carries P ss₂ t := by
  generalize hx : s ++ b :: t = x at h
  induction h generalizing s with
  | plain hx' =>
    subst hx
    exact ⟨[], [], rfl, .plain fun d hd => hx' d (List.mem_append_left _ hd),
      .plain fun d hd => hx' d (List.mem_append_right _ (List.mem_cons_of_mem b hd))⟩
  | @quoted u t' ss q hu hlast hafter hrest ih =>
    have hquote : b ≠ '\'' := by rcases hb with rfl | rfl <;> decide
    have hinside : b ∉ Quotation.quote q := by
      intro hmem
      obtain ⟨hopen, hclose⟩ := unbracketed_quote q b hmem
      exact hb.elim hopen hclose
    rcases List.append_eq_append_iff.1 hx with ⟨v, rfl, hv⟩ | ⟨v, rfl, hv⟩
    · -- The parenthesis stands before the first quotation.
      cases v with
      | nil => exact absurd (List.cons.inj hv).1 hquote
      | cons d v =>
        obtain ⟨rfl, rfl⟩ := List.cons.inj hv
        refine ⟨[], _, rfl, .plain fun e he => hu e (List.mem_append_left _ he), ?_⟩
        refine .quoted q (fun e he => hu e (by simp [he])) ?_ hafter hrest
        rw [List.getLast?_append, List.getLast?_cons] at hlast
        cases hend : v.getLast? with
        | none => simp
        | some e => simpa [hend] using hlast
    · rcases List.append_eq_append_iff.1 hv with ⟨w, rfl, rfl⟩ | ⟨w, hw, hrest'⟩
      · -- It stands after it.
        obtain ⟨ss₁, ss₂, rfl, hleft, hright⟩ := ih rfl
        refine ⟨q :: ss₁, ss₂, rfl, .quoted q hu hlast ?_ hleft, hright⟩
        cases w with
        | nil => simp
        | cons e w => exact hafter
      · -- The first quotation ends right before it.
        cases w with
        | nil =>
          rw [List.append_nil] at hw
          subst hw
          obtain ⟨ss₁, ss₂, rfl, hleft, hright⟩ := ih (s := []) hrest'
          refine ⟨q :: ss₁, ss₂, rfl, ?_, hright⟩
          have hfirst := Carries.quoted q hu hlast (by simp) hleft
          rwa [List.append_nil] at hfirst
        | cons e w =>
          obtain ⟨rfl, -⟩ := List.cons.inj hrest'
          exact absurd (hw ▸ List.mem_append_right v List.mem_cons_self) hinside

end Carries

/-- The quotations that stand in several texts one after another. -/
inductive CarriesAll (P : Char → Prop) : List Text → List Text → Prop where
  | nil : CarriesAll P [] []
  | cons {ss ss' : List Text} {t : Text} {ts : List Text} : Carries P ss t → CarriesAll P ss' ts →
      CarriesAll P (ss ++ ss') (t :: ts)

variable {P : Char → Prop} {ss ss' : List Text} {t : Text} {ts ts' : List Text}

namespace CarriesAll

theorem single (h : Carries P ss t) : CarriesAll P ss [t] := by
  simpa using cons h nil

theorem of_single (h : CarriesAll P ss [t]) : Carries P ss t := by
  cases h with
  | cons ht hrest =>
    cases hrest
    rwa [List.append_nil]

theorem append (h : CarriesAll P ss ts) (h' : CarriesAll P ss' ts') :
    CarriesAll P (ss ++ ss') (ts ++ ts') := by
  induction h with
  | nil => exact h'
  | cons ht _ ih =>
    rw [List.append_assoc]
    exact .cons ht ih

/-- Texts for each of several things carry the quotations of these one after another. -/
theorem map {α : Type} {quoted : α → List Text} {f : α → Text} {list : List α}
    (h : ∀ a ∈ list, Carries P (quoted a) (f a)) :
    CarriesAll P (list.flatMap quoted) (list.map f) := by
  induction list with
  | nil => exact nil
  | cons a list ih =>
    exact cons (h a List.mem_cons_self) (ih fun b hb => h b (List.mem_cons_of_mem a hb))

/-- What is put in the place of each text may carry its quotations in several texts. -/
theorem flatMap {f : Text → List Text}
    (hf : ∀ {ss : List Text} {t : Text}, Carries P ss t → CarriesAll P ss (f t))
    (h : CarriesAll P ss ts) : CarriesAll P ss (ts.flatMap f) := by
  induction h with
  | nil => exact nil
  | cons ht _ ih => exact (hf ht).append ih

/-- Texts without characters carry nothing. -/
theorem filter_ne_nil (h : CarriesAll P ss ts) : CarriesAll P ss (ts.filter (!·.isEmpty)) := by
  induction h with
  | nil => exact nil
  | @cons ss ss' t ts ht _ ih =>
    cases t with
    | nil =>
      rw [ht.eq_nil_of_unquoted (by simp), List.nil_append]
      exact ih
    | cons c t => exact cons ht ih

end CarriesAll

/-! ## Merging -/

section Merging

variable (hP : ∀ c, c ≠ '\'' → P c)
include hP

theorem Carries.prepend_unquoted {u : Text} (hu : '\'' ∉ u) (h : Carries P ss t) :
    Carries P ss (u ++ t) :=
  h.prepend (fun _ hc => hP _ fun hquote => hu (hquote ▸ hc))
    fun hlast => hu (List.mem_of_getLast? hlast)

theorem Carries.paren (h : Carries P ss t) : Carries P ss (Text.paren t) := by
  have hclose : ∀ c ∈ [')'], P c := by simpa using hP ')' (by decide)
  have hinside := h.append (.plain hclose) (by decide)
  rw [List.append_nil] at hinside
  exact hinside.prepend_unquoted hP (u := ['(']) (by decide)

/-- Two texts with something between them that holds no quotes. -/
theorem Carries.between {s separator : Text} (hseparator : '\'' ∉ separator)
    (hne : separator ≠ []) (hs : Carries P ss s) (ht : Carries P ss' t) :
    Carries P (ss ++ ss') (s ++ separator ++ t) := by
  rw [List.append_assoc]
  refine hs.append (ht.prepend_unquoted hP hseparator) ?_
  cases separator with
  | nil => exact absurd rfl hne
  | cons c separator =>
    intro hhead
    exact hseparator (Option.some.inj hhead ▸ List.mem_cons_self)

theorem CarriesAll.joined {separator : Text} (hseparator : '\'' ∉ separator)
    (hne : separator ≠ []) (h : CarriesAll P ss ts) : Carries P ss (Text.joined separator ts) := by
  induction h with
  | nil => exact .nil
  | @cons ss ss' t ts ht hrest ih =>
    cases ts with
    | nil =>
      cases hrest
      rwa [List.append_nil]
    | cons u rest => exact ht.between hP hseparator hne ih

theorem CarriesAll.wrap (op : Connective) (h : CarriesAll P ss ts) :
    Carries P ss (Junction.wrap op ts) := by
  have hseparator : '\'' ∉ ((" " : Text) ++ op.keyword ++ (" " : Text)) := by cases op <;> decide
  exact (h.joined hP hseparator (by simp)).paren hP

theorem carriesAll_of_joinedGroups? {gap : Text} {cuts : List (Text × Text)} {groups : List Text}
    {op : Option Connective} (hgap : '\'' ∉ gap)
    (hcuts : ∀ g ∈ cuts, ∃ s, g.1 = Text.paren s)
    (h : Carries P ss (gap ++ cuts.flatMap fun g => g.1 ++ g.2))
    (hjoined : Split.joinedGroups? cuts = some (groups, op)) : CarriesAll P ss groups := by
  induction cuts generalizing ss gap groups op with
  | nil => cases hjoined
  | cons cut rest ih =>
    obtain ⟨group, gap'⟩ := cut
    obtain ⟨s, rfl : group = Text.paren s⟩ := hcuts _ List.mem_cons_self
    have hinside : Carries P ss (s ++ ')' :: (gap' ++ rest.flatMap fun g => g.1 ++ g.2)) := by
      have hrest := h.of_unquoted_append hgap
      simp only [List.flatMap_cons, Text.paren, List.append_assoc, List.cons_append] at hrest
      exact hrest.of_cons (by decide)
    obtain ⟨ss₁, ss₂, rfl, hs, hafter⟩ := hinside.split (.inr rfl)
    cases rest with
    | nil =>
      obtain ⟨hblank, hx⟩ := Split.blank_of_joinedGroups?_singleton hjoined
      obtain ⟨rfl, rfl⟩ := Prod.mk.inj hx
      rw [List.flatMap_nil, List.append_nil] at hafter
      rw [hafter.eq_nil_of_unquoted (unquoted_of_blank hblank), List.append_nil]
      exact .single (hs.paren hP)
    | cons next rest =>
      obtain ⟨op₁, groups', op₂, hkeyword, hrest, -, hx⟩ :=
        Split.exists_of_joinedGroups?_cons hjoined
      obtain ⟨rfl, rfl⟩ := Prod.mk.inj hx
      exact .cons (hs.paren hP) (ih (unquoted_of_ofKeyword? hkeyword)
        (fun g hg => hcuts g (List.mem_cons_of_mem _ hg)) hafter hrest)

/-- The groups of a text carry its quotations. -/
theorem carriesAll_of_groupsOf? {groups : List Text} {op : Option Connective}
    (h : Carries P ss t) (hgroups : Split.groupsOf? t = some (groups, op)) :
    CarriesAll P ss groups := by
  obtain ⟨o, ho, hgap, hjoined⟩ := Split.exists_outline_of_groupsOf? hgroups
  obtain ⟨o', ho', hnested, -⟩ :=
    Outline.exists_of_depth?_zero (Split.isNested_of_groupsOf? hgroups)
  obtain rfl := Option.some.inj (ho.symm.trans ho')
  have htext := Outline.text_of_ofText? ho
  rw [Outline.text, Outline.openRest_of_ofText?_zero ho, List.nil_append] at htext
  rw [← htext] at h
  refine carriesAll_of_joinedGroups? hP (unquoted_of_blank hgap) ?_ h hjoined
  intro g hg
  obtain ⟨s, -, hs⟩ := hnested g hg
  exact ⟨s, hs⟩

theorem carriesAll_members (op : Connective) (h : Carries P ss t) :
    CarriesAll P ss (Junction.members op t) := by
  have htrim := h.trim
  have hwhole : CarriesAll P ss [Text.paren (Text.trim t)] := .single (htrim.paren hP)
  unfold Junction.members
  simp only
  split
  · next hempty =>
    rw [List.isEmpty_iff] at hempty
    rw [hempty] at htrim
    rw [htrim.eq_nil_of_unquoted (by simp)]
    exact .nil
  · simp only [Split.ofText, Text.trim_trim]
    cases hgroups : Split.groupsOf? (Text.trim t) with
    | none => exact hwhole
    | some x =>
      obtain ⟨groups, op'⟩ := x
      have hall := carriesAll_of_groupsOf? hP htrim hgroups
      cases op' with
      | some op' =>
        simp only
        split
        · exact hall
        · exact hwhole
      | none =>
        obtain ⟨g, rfl⟩ := Split.eq_singleton_of_groupsOf? hgroups
        obtain ⟨s, -, rfl⟩ :=
          Split.exists_of_mem_groupsOf? (Split.isNested_of_groupsOf? hgroups) hgroups g (by simp)
        have hinside : Carries P ss s :=
          (hall.of_single.of_cons (by decide)).of_concat (by decide)
        simp only [List.headD_cons, Split.inside_paren]
        cases hinner : Split.groupsOf? s with
        | none => exact hall
        | some x =>
          obtain ⟨inner, - | op'⟩ := x
          · exact hall
          · simp only
            split
            · exact carriesAll_of_groupsOf? hP hinside hinner
            · exact .single htrim

theorem carries_joinMembers (op : Connective) (h : CarriesAll P ss ts) :
    Carries P ss (Junction.joinMembers op ts) := by
  unfold Junction.joinMembers
  split
  · cases h
    exact .nil
  · exact h.of_single
  · exact h.wrap hP op

/-- A merged text carries the quotations of the texts one after another. -/
theorem carries_merge (op : Connective) (h : CarriesAll P ss ts) :
    Carries P ss (Junction.merge op ts) :=
  carries_joinMembers hP op (h.flatMap (carriesAll_members hP op))

end Merging

/-! ## In the restored text -/

theorem Carries.exists_of_mem (h : Carries P ss t) {s : Text} (hs : s ∈ ss) :
    ∃ before after, t = before ++ (Quotation.quote s ++ after) ∧
      before.getLast? ≠ some '\'' ∧ after.head? ≠ some '\'' := by
  induction h with
  | plain => cases hs
  | @quoted u t ss q _ hlast hafter _ ih =>
    rcases List.mem_cons.1 hs with rfl | hs
    · exact ⟨u, t, rfl, hlast, hafter⟩
    · obtain ⟨before, after, rfl, hbefore, hend⟩ := ih hs
      refine ⟨u ++ (Quotation.quote q ++ before), after, by simp, ?_, hend⟩
      cases before with
      | nil => exact absurd rfl hafter
      | cons c before => simpa [List.getLast?_append] using hbefore

/-- Where a quotation stands in a text, it is read from the restored text, itself restored. -/
theorem Carries.exists_unquote? (h : Carries P ss t) {s : Text} (hs : s ∈ ss) :
    ∃ before inside after, restore t = before ++ '\'' :: inside ∧
      before.getLast? ≠ some '\'' ∧ after.head? ≠ some '\'' ∧
      unquote? inside = some (restore s, after) := by
  obtain ⟨before, after, rfl, hbefore, hafter⟩ := h.exists_of_mem hs
  have hend := head?_restore_ne hafter
  refine ⟨restore before, doubled (restore s) ++ '\'' :: restore after, restore after, ?_,
    getLast?_restore_ne hbefore, hend, unquote?_doubled _ hend⟩
  simp [restore_quote]

/-- The literals of a restored text whose only quotes are those of its quotations. -/
theorem Carries.literals_restore (h : Carries (· ≠ '\'') ss t) :
    literals (restore t) = ss.map fun s => doubled (restore s) := by
  have hunquoted : ∀ {u : Text}, (∀ c ∈ u, c ≠ '\'') → '\'' ∉ restore u := fun hu =>
    unquoted_restore fun hmem => hu _ hmem rfl
  induction h with
  | plain ht => exact literals_of_unquoted (hunquoted ht)
  | quoted s hu _ hafter _ ih =>
    have hquotation := literals_quotation (restore s) (head?_restore_ne hafter)
    rw [restore_append, literals_append_of_unquoted (hunquoted hu), restore_append, restore_quote,
      List.map_cons, ← ih, ← hquotation]
    simp

end Quotation
end MapQuery
