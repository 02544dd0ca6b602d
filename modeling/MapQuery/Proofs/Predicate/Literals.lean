import MapQuery.Proofs.Predicate.Merging

/-!
# Quoted literals

The literals of a text in their order, each byte for byte as it stands between its quotes. A merge
whose scans heed quotes keeps them all.
-/

set_option autoImplicit false

namespace MapQuery

namespace Quotation

/-- Where a text is with respect to its literals. -/
inductive Place where
  | outside
  | inside
  /-- After a quote that closes the literal, unless another quote follows. -/
  | closing

def Place.quoted : Place → Bool
  | .inside => true
  | .outside | .closing => false

/-- What is left of the literal at some place, and the literals after it. -/
def literalsFrom : Place → Text → Text × List Text
  | _, [] => ([], [])
  | .outside, c :: t =>
    if c = '\'' then ([], (literalsFrom .inside t).1 :: (literalsFrom .inside t).2)
    else literalsFrom .outside t
  | .inside, c :: t =>
    if c = '\'' then literalsFrom .closing t
    else (c :: (literalsFrom .inside t).1, (literalsFrom .inside t).2)
  | .closing, c :: t =>
    if c = '\'' then ('\'' :: '\'' :: (literalsFrom .inside t).1, (literalsFrom .inside t).2)
    else ([], (literalsFrom .outside t).2)

/-- The quoted literals of a text, quotes inside them written twice. -/
def literals (t : Text) : List Text := (literalsFrom .outside t).2

example : literals "(A = 'it''s') OR (B = ')')" = (["it''s", ")"] : List Text) := by decide

@[simp] theorem literals_nil : literals [] = [] := rfl

theorem literalsFrom_outside_fst (t : Text) : (literalsFrom .outside t).1 = [] := by
  induction t with
  | nil => rfl
  | cons c t ih =>
    simp only [literalsFrom]
    split
    · rfl
    · exact ih

theorem literals_append_of_unquoted {a : Text} (ha : '\'' ∉ a) (t : Text) :
    literals (a ++ t) = literals t := by
  induction a with
  | nil => rfl
  | cons c a ih =>
    simp only [List.mem_cons, not_or] at ha
    simp only [literals, List.cons_append, literalsFrom, if_neg (Ne.symm ha.1)]
    exact ih ha.2

theorem literals_of_unquoted {a : Text} (ha : '\'' ∉ a) : literals a = [] := by
  simpa using literals_append_of_unquoted ha []

def Place.next (place : Place) (c : Char) : Place :=
  match place with
  | .inside => if c = '\'' then .closing else .inside
  | .outside | .closing => if c = '\'' then .inside else .outside

theorem Place.quoted_next_of_quoted {place : Place} (h : place.quoted = true) (c : Char) :
    (place.next c).quoted = (c != '\'') := by
  cases place with
  | inside => by_cases hc : c = '\'' <;> simp [next, quoted, hc, bne]
  | outside | closing => simp [quoted] at h

theorem Place.quoted_next_of_unquoted {place : Place} (h : place.quoted = false) (c : Char) :
    (place.next c).quoted = (c == '\'') := by
  cases place with
  | inside => simp [quoted] at h
  | outside | closing => by_cases hc : c = '\'' <;> simp [next, quoted, hc]

theorem Place.isSome_of_ofText?_cons {place : Place} {c : Char} {t : Text}
    (h : (Levels.ofText? place.quoted (c :: t)).isSome = true) :
    (Levels.ofText? (place.next c).quoted t).isSome = true := by
  cases hplace : place.quoted with
  | true =>
    rw [quoted_next_of_quoted hplace]
    simpa [Levels.ofText?, hplace] using h
  | false =>
    rw [quoted_next_of_unquoted hplace]
    rw [hplace] at h
    simp only [Levels.ofText?] at h
    split at h
    · next hopen =>
      subst hopen
      exact Option.isSome_of_isSome_bind h
    · split at h
      · next hclose =>
        subst hclose
        simpa using h
      · simpa using h

/-- The literals of a text whose quotes match are followed by those of the text after it. -/
theorem literalsFrom_append {place : Place} {s t : Text}
    (hs : (Levels.ofText? place.quoted s).isSome = true) (ht : t.head? ≠ some '\'') :
    literalsFrom place (s ++ t) =
      ((literalsFrom place s).1, (literalsFrom place s).2 ++ literals t) := by
  induction s generalizing place with
  | nil =>
    cases place with
    | inside => simp [Levels.ofText?, Place.quoted] at hs
    | outside => exact Prod.ext (literalsFrom_outside_fst t) rfl
    | closing =>
      cases t with
      | nil => rfl
      | cons c t =>
        have hc : c ≠ '\'' := fun hc => ht (congrArg some hc)
        simp [literalsFrom, literals, hc]
  | cons c s ih =>
    have hrest := ih (Place.isSome_of_ofText?_cons hs)
    by_cases hc : c = '\''
    · cases place <;> simp_all [literalsFrom, Place.next]
    · cases place <;> simp_all [literalsFrom, Place.next]

theorem literals_append {s t : Text} {l : Level} (hs : Level.ofText? s = some l)
    (ht : t.head? ≠ some '\'') : literals (s ++ t) = literals s ++ literals t := by
  have hread : (Levels.ofText? Place.outside.quoted s).isSome = true := by
    simp [Place.quoted, Level.ofText?_eq_some_iff.1 hs]
  exact congrArg Prod.snd (literalsFrom_append hread ht)

theorem literals_paren_append {s : Text} {l : Level} (hs : Level.ofText? s = some l) (t : Text) :
    literals (Text.paren s ++ t) = literals s ++ literals t := by
  have hclose : '\'' ∉ [')'] := by decide
  have hopen : '\'' ∉ ['('] := by decide
  have hinside := literals_append hs (t := ')' :: t) (by simp)
  rw [← List.singleton_append, literals_append_of_unquoted hclose] at hinside
  have hsplit : Text.paren s ++ t = ['('] ++ (s ++ ([')'] ++ t)) := by simp [Text.paren]
  rw [hsplit, literals_append_of_unquoted hopen, hinside]

theorem literals_paren {s : Text} {l : Level} (hs : Level.ofText? s = some l) :
    literals (Text.paren s) = literals s := by
  simpa using literals_paren_append hs []

theorem unquoted_of_blank {t : Text} (h : Text.blank t = true) : '\'' ∉ t := fun hc =>
  absurd (Text.isBlank_of_blank h _ hc) (by decide)

theorem unquoted_of_ofKeyword? {t : Text} {op : Connective}
    (h : Connective.ofKeyword? (Text.trim t) = some op) : '\'' ∉ t := by
  intro hc
  obtain ⟨a, b, ha, hb, ht⟩ := Text.exists_trim t
  rw [ht] at hc
  rcases List.mem_append.1 hc with hc | hc
  · rcases List.mem_append.1 hc with hc | hc
    · exact unquoted_of_blank ha hc
    · exact absurd (Connective.mem_letters_of_ofKeyword? h _ hc) (by decide)
  · exact unquoted_of_blank hb hc

theorem literals_of_joinedGroups? {gs : List (Group × Text)}
    (hsound : ∀ g ∈ gs, ∃ k, Level.ofText? k.text = some k ∧ g.1 = k.group) {texts : List Text}
    {op : Option Connective} (h : Split.joinedGroups? (Level.cuts gs) = some (texts, op)) :
    literals (gs.flatMap fun g => g.1.text ++ g.2) = texts.flatMap literals := by
  induction gs generalizing texts op with
  | nil => simp [Split.joinedGroups?] at h
  | cons g gs ih =>
    obtain ⟨g, gap⟩ := g
    obtain ⟨k, hk, hg⟩ := hsound (g, gap) (by simp)
    obtain rfl : g = k.group := hg
    have hfirst : literals k.group.text = literals k.text := literals_paren hk
    cases gs with
    | nil =>
      obtain ⟨hblank, hx⟩ := Split.blank_of_joinedGroups?_singleton h
      obtain ⟨rfl, rfl⟩ := Prod.mk.inj hx
      have hend := literals_of_unquoted (unquoted_of_blank hblank)
      simp only [List.flatMap_cons, List.flatMap_nil, List.append_nil]
      exact (literals_paren_append hk gap).trans (by rw [hend, List.append_nil, hfirst])
    | cons next rest =>
      obtain ⟨op₁, texts', op₂, hkeyword, hjoined, -, hx⟩ := Split.exists_of_joinedGroups?_cons h
      obtain ⟨rfl, rfl⟩ := Prod.mk.inj hx
      have hrest := ih (fun g' hg' => hsound g' (List.mem_cons_of_mem _ hg')) hjoined
      simp only [List.flatMap_cons, List.append_assoc] at hrest ⊢
      rw [← hrest, hfirst]
      exact (literals_paren_append hk _).trans
        (congrArg _ (literals_append_of_unquoted (unquoted_of_ofKeyword? hkeyword) _))

theorem literals_of_joined? {t : Text} {l : Level} (hl : Level.ofText? t = some l)
    {texts : List Text} {op : Option Connective} (h : l.joined? = some (texts, op)) :
    literals t = texts.flatMap literals := by
  unfold Level.joined? at h
  split at h
  · next hgap =>
    rw [← Level.text_of_ofText? hl, Level.text,
      literals_append_of_unquoted (unquoted_of_blank hgap)]
    exact literals_of_joinedGroups? (Level.sound_of_ofText? hl) h
  · simp at h

theorem literals_trim {t : Text} {l : Level} (hl : Level.ofText? (Text.trim t) = some l) :
    literals (Text.trim t) = literals t := by
  obtain ⟨a, b, ha, hb, ht⟩ := Text.exists_trim t
  have hhead : b.head? ≠ some '\'' := fun hc => unquoted_of_blank hb (List.mem_of_head? hc)
  conv => rhs; rw [ht]
  rw [List.append_assoc, literals_append_of_unquoted (unquoted_of_blank ha),
    literals_append hl hhead, literals_of_unquoted (unquoted_of_blank hb), List.append_nil]

theorem literals_members {op : Connective} {t : Text} {l : Level} (hl : Level.ofText? t = some l)
    (hheeds : Rendering.asIs.HeedsThroughout t) :
    (Junction.members op t).flatMap literals = literals t := by
  obtain ⟨m, hm, -⟩ := Level.ofText?_trim hl
  have htrim := literals_trim hm
  have hscans : Rendering.asIs.HeedsThroughout (Text.trim t) := by
    simpa [Rendering.HeedsThroughout] using hheeds
  have hshown := shown_ofText (Text.trim_trim t) hscans
  have hself : [Text.trim t].flatMap literals = literals t := by simp [htrim]
  have hwhole : [Text.paren (Text.trim t)].flatMap literals = literals t := by
    simp [literals_paren hm, htrim]
  unfold Junction.members
  simp only
  split
  · next hempty =>
    rw [List.isEmpty_iff] at hempty
    rw [← htrim, hempty]
    rfl
  · revert hshown
    cases Split.ofText (Text.trim t) with
    | undivided =>
      intro _
      exact hwhole
    | single group =>
      rintro ⟨hgroup, -⟩
      obtain rfl : group = Text.trim t := by simpa using hgroup
      exact hself
    | run op' groups =>
      rintro ⟨l', hl', hjoined⟩
      have hgroups := literals_of_joined? hl' hjoined
      simp only [Rendering.text_asIs] at hgroups
      simp only
      split
      · simpa [← htrim, List.flatMap_map] using hgroups.symm
      · exact hwhole
    | wrapped op' groups =>
      rintro ⟨k, hk, htext, hjoined⟩
      have hgroups := literals_of_joined? hk hjoined
      rw [Rendering.text_asIs] at htext
      simp only
      split
      · have hparen : literals k.group.text = literals k.text := literals_paren hk
        rw [← htrim, htext, hparen]
        simpa [List.flatMap_map] using hgroups.symm
      · exact hself

theorem literals_joined {op : Connective} {v : Text → Bool} {groups : List Text}
    {bs : List Bool} (h : List.Forall₂ (IsGroup .asIs v) groups bs) :
    literals (Text.joined op.separator groups) = groups.flatMap literals := by
  have hseparator : '\'' ∉ op.separator := by cases op <;> decide
  induction h with
  | nil => rfl
  | @cons g b groups bs hg hgroups ih =>
    obtain ⟨k, hk, htext, -⟩ := hg
    rw [Rendering.text_asIs] at htext
    subst htext
    cases groups with
    | nil => simp [Text.joined]
    | cons next rest =>
      have hfirst : literals k.group.text = literals k.text := literals_paren hk
      rw [Text.joined, List.append_assoc, List.flatMap_cons, ← ih, hfirst]
      exact (literals_paren_append hk _).trans
        (congrArg _ (literals_append_of_unquoted hseparator _))

theorem literals_joinMembers {op : Connective} {v : Text → Bool} {groups : List Text}
    {bs : List Bool} (h : List.Forall₂ (IsGroup .asIs v) groups bs) :
    literals (Junction.joinMembers op groups) = groups.flatMap literals := by
  rcases groups with - | ⟨g, - | ⟨g', rest⟩⟩
  · rfl
  · simp [Junction.joinMembers]
  · obtain ⟨l, -, -, hl, -⟩ := exists_level_of_joined op h (by simp)
    rw [Rendering.text_asIs] at hl
    exact (literals_paren hl).trans (literals_joined h)

/-- A merge keeps the literals of its texts. -/
theorem literals_merge {op : Connective} {v : Text → Bool} {texts : List Text}
    {os : List (Option Bool)} (h : List.Forall₂ (Contributes .asIs v) texts os) :
    literals (Junction.merge op texts) = texts.flatMap literals := by
  obtain ⟨bs, hbs, -, -⟩ : ∃ bs, List.Forall₂ (IsGroup .asIs v)
      (texts.flatMap (Junction.members op)) bs ∧ _ ∧ op.holds bs = _ := isGroups_flatMap_members h
  refine (literals_joinMembers hbs).trans ?_
  clear hbs
  induction h with
  | nil => rfl
  | @cons t o texts os ht _ ih =>
    have hfirst : (Junction.members op t).flatMap literals = literals t := by
      cases ht with
      | blank hblank =>
        rw [Junction.members_of_blank hblank, literals_of_unquoted (unquoted_of_blank hblank)]
        rfl
      | reading _ hk hheeds => exact literals_members (by simpa using hk) hheeds
    rw [List.flatMap_cons, List.flatMap_append, ih, hfirst, List.flatMap_cons]

end Quotation
end MapQuery
