import MapQuery.Proofs.Markup.Entities

/-!
# Spellings

Markup is well formed when it spells trees of elements: every element is closed where it was opened,
under its own name, and holds elements or text, not both. A text spells at most one run of trees.
-/

set_option autoImplicit false

namespace MapQuery.Markup

/-- What markup says. -/
inductive Tree where
  | element (name : Text) (attributes : List (Text × Text)) (content : List Tree)
  | chars (text : Text)

namespace Tree

mutual

/-- The names of the elements in a tree. -/
def names : Tree → List Text
  | .element name _ content => name :: namesOfList content
  | .chars _ => []

def namesOfList : List Tree → List Text
  | [] => []
  | t :: rest => t.names ++ namesOfList rest

end

mutual

/-- A tree with its texts and the values of its attributes mapped. -/
def mapText (f : Text → Text) : Tree → Tree
  | .element name attributes content =>
    .element name (attributes.map fun a => (a.1, f a.2)) (mapTextOfList f content)
  | .chars t => .chars (f t)

def mapTextOfList (f : Text → Text) : List Tree → List Tree
  | [] => []
  | t :: rest => t.mapText f :: mapTextOfList f rest

end

theorem namesOfList_eq_flatMap (ts : List Tree) : namesOfList ts = ts.flatMap names := by
  induction ts with
  | nil => rfl
  | cons t rest ih => simp [namesOfList, ih]

/-- The content of an element that holds a text, which may be empty. -/
def contentOfText (t : Text) : List Tree := if t = [] then [] else [.chars t]

theorem mapTextOfList_eq_map (f : Text → Text) (ts : List Tree) :
    mapTextOfList f ts = ts.map (mapText f) := by
  induction ts with
  | nil => rfl
  | cons t rest ih => simp [mapTextOfList, ih]

end Tree

/-- The characters of names after the first one, which is a letter. -/
def isNameChar (c : Char) : Bool :=
  c.isAlphanum || c == ':' || c == '-' || c == '_' || c == '.'

def isName : Text → Bool
  | [] => false
  | c :: t => c.isAlpha && t.all isNameChar

/-- What may stand in a tag: names, and no attribute twice. -/
structure IsTag (name : Text) (attributes : List (Text × Text)) : Prop where
  named : isName name = true
  keyed : ∀ a ∈ attributes, isName a.1 = true
  distinct : (attributes.map Prod.fst).Nodup

instance (name : Text) (attributes : List (Text × Text)) : Decidable (IsTag name attributes) :=
  decidable_of_iff
    (isName name = true ∧ (∀ a ∈ attributes, isName a.1 = true) ∧
      (attributes.map Prod.fst).Nodup)
    ⟨fun h => ⟨h.1, h.2.1, h.2.2⟩, fun h => ⟨h.1, h.2, h.3⟩⟩

/-- A tag up to its end. -/
def tagText (name : Text) (attributes : List (Text × Text)) : Text :=
  '<' :: (name ++ attributes.flatMap attributeText)

/-- Whether a text spells a run of trees. -/
inductive Spells : Text → List Tree → Prop
  | nil : Spells [] []
  | element {name inner s : Text} {attributes : List (Text × Text)} {content ts : List Tree} :
    IsTag name attributes → Spells inner content → Spells s ts →
      Spells (element name attributes inner ++ s) (.element name attributes content :: ts)
  | chars {name t s : Text} {attributes : List (Text × Text)} {ts : List Tree} :
    IsTag name attributes → t ≠ [] → Spells s ts →
      Spells (element name attributes (encode t) ++ s) (.element name attributes [.chars t] :: ts)
  | lone {name s : Text} {attributes : List (Text × Text)} {ts : List Tree} :
    IsTag name attributes → Spells s ts →
      Spells (tagText name attributes ++ "/>" ++ s) (.element name attributes [] :: ts)

theorem isNameChar_of_isName {t : Text} (h : isName t = true) : ∀ c ∈ t, isNameChar c = true := by
  cases t with
  | nil => cases h
  | cons c t =>
    rw [isName, Bool.and_eq_true, List.all_eq_true] at h
    intro d hd
    rcases List.mem_cons.1 hd with rfl | hd
    · simp [isNameChar, Char.isAlphanum, h.1]
    · exact h.2 d hd

def EndsTag (x : Text) : Prop := ∃ c u, x = c :: u ∧ (c = '>' ∨ c = '/')

theorem endsTag_greater (x : Text) : EndsTag ('>' :: x) := ⟨'>', x, rfl, Or.inl rfl⟩

theorem endsTag_lone (x : Text) : EndsTag ("/>" ++ x) := ⟨'/', '>' :: x, rfl, Or.inr rfl⟩

theorem attributeText_append (a : Text × Text) (s : Text) :
    attributeText a ++ s = ' ' :: (a.1 ++ '=' :: '"' :: (encode a.2 ++ '"' :: s)) := by
  simp [attributeText]

theorem attributes_append_inj {as bs : List (Text × Text)} {x y : Text}
    (has : ∀ a ∈ as, isName a.1 = true) (hbs : ∀ b ∈ bs, isName b.1 = true) (hx : EndsTag x)
    (hy : EndsTag y) (h : as.flatMap attributeText ++ x = bs.flatMap attributeText ++ y) :
    as = bs ∧ x = y := by
  have hblank : ∀ {z : Text} (a : Text × Text) (s : Text), EndsTag z →
      z ≠ attributeText a ++ s := by
    rintro z a s ⟨c, u, rfl, hc⟩ heq
    rw [attributeText_append, List.cons.injEq] at heq
    rw [heq.1] at hc
    rcases hc with hc | hc <;> exact absurd hc (by decide)
  induction as generalizing bs with
  | nil =>
    cases bs with
    | nil => exact ⟨rfl, h⟩
    | cons b bs =>
      rw [List.flatMap_cons, List.append_assoc] at h
      exact absurd h (hblank b _ hx)
  | cons a as ih =>
    cases bs with
    | nil =>
      rw [List.flatMap_cons, List.append_assoc] at h
      exact absurd h.symm (hblank a _ hy)
    | cons b bs =>
      rw [List.flatMap_cons, List.flatMap_cons, List.append_assoc, List.append_assoc,
        attributeText_append, attributeText_append] at h
      have hequals : ∀ {u : Text}, ∀ c ∈ ('=' :: u).head?, isNameChar c = false := by
        intro u c hc
        obtain rfl : '=' = c := by simpa using hc
        decide
      obtain ⟨hname, h⟩ := Text.append_inj_of_class
        (isNameChar_of_isName (has a List.mem_cons_self))
        (isNameChar_of_isName (hbs b List.mem_cons_self)) hequals hequals (List.cons.inj h).2
      obtain ⟨hvalue, h⟩ := encode_append_inj (isEnd_head? rfl) (isEnd_head? rfl)
        (List.cons.inj (List.cons.inj h).2).2
      obtain ⟨hrest, hxy⟩ := ih (fun a' ha' => has a' (List.mem_cons_of_mem a ha'))
        (fun b' hb' => hbs b' (List.mem_cons_of_mem b hb')) (List.cons.inj h).2
      exact ⟨List.cons_eq_cons.2 ⟨Prod.ext hname hvalue, hrest⟩, hxy⟩

theorem head?_attributes {as : List (Text × Text)} {x : Text} (hx : EndsTag x) :
    ∀ c ∈ (as.flatMap attributeText ++ x).head?, isNameChar c = false := by
  obtain ⟨c, u, rfl, hc⟩ := hx
  intro d hd
  cases as with
  | nil =>
    obtain rfl : c = d := by simpa using hd
    rcases hc with rfl | rfl <;> decide
  | cons a as =>
    rw [List.flatMap_cons, List.append_assoc, attributeText_append] at hd
    obtain rfl : ' ' = d := by simpa using hd
    decide

theorem tagText_append (name x : Text) (as : List (Text × Text)) :
    tagText name as ++ x = '<' :: (name ++ (as.flatMap attributeText ++ x)) := by
  simp [tagText]

theorem tagText_append_inj {name name' : Text} {as bs : List (Text × Text)} {x y : Text}
    (htag : IsTag name as) (htag' : IsTag name' bs) (hx : EndsTag x) (hy : EndsTag y)
    (h : tagText name as ++ x = tagText name' bs ++ y) : name = name' ∧ as = bs ∧ x = y := by
  rw [tagText_append, tagText_append] at h
  obtain ⟨hname, h⟩ := Text.append_inj_of_class (isNameChar_of_isName htag.named)
    (isNameChar_of_isName htag'.named) (head?_attributes hx) (head?_attributes hy)
    (List.cons.inj h).2
  exact ⟨hname, attributes_append_inj htag.keyed htag'.keyed hx hy h⟩

theorem element_append (name inner s : Text) (a : List (Text × Text)) :
    element name a inner ++ s =
      tagText name a ++ '>' :: (inner ++ '<' :: '/' :: (name ++ '>' :: s)) := by
  simp [element, tagText]

theorem element_append_inj {name name' inner inner' s s' : Text} {as bs : List (Text × Text)}
    (htag : IsTag name as) (htag' : IsTag name' bs)
    (h : element name as inner ++ s = element name' bs inner' ++ s') :
    name = name' ∧ as = bs ∧
      inner ++ '<' :: '/' :: (name ++ '>' :: s) = inner' ++ '<' :: '/' :: (name' ++ '>' :: s') := by
  rw [element_append, element_append] at h
  obtain ⟨hname, hattributes, hcontent⟩ :=
    tagText_append_inj htag htag' (endsTag_greater _) (endsTag_greater _) h
  exact ⟨hname, hattributes, (List.cons.inj hcontent).2⟩

theorem element_append_ne_lone {name name' inner s s' : Text} {as bs : List (Text × Text)}
    (htag : IsTag name as) (htag' : IsTag name' bs) :
    element name as inner ++ s ≠ tagText name' bs ++ ("/>" ++ s') := by
  intro h
  rw [element_append] at h
  obtain ⟨-, -, hend⟩ := tagText_append_inj htag htag' (endsTag_greater _) (endsTag_lone _) h
  exact absurd (List.cons.inj hend).1 (by decide)

/-- Where the text of an element's content is over. -/
def EndsContent (r : Text) : Prop := r = [] ∨ ∃ u, r = '<' :: '/' :: u

namespace Spells

theorem append {s s' : Text} {ts ts' : List Tree} (h : Spells s ts) (h' : Spells s' ts') :
    Spells (s ++ s') (ts ++ ts') := by
  induction h with
  | nil => exact h'
  | element htag hinner _ _ ih =>
    rw [List.append_assoc]
    exact .element htag hinner ih
  | chars htag ht _ ih =>
    rw [List.append_assoc]
    exact .chars htag ht ih
  | lone htag _ ih =>
    rw [List.append_assoc]
    exact .lone htag ih

theorem single {name s : Text} {attributes : List (Text × Text)} {ts : List Tree}
    (htag : IsTag name attributes) (h : Spells s ts) :
    Spells (Markup.element name attributes s) [.element name attributes ts] := by
  rw [← List.append_nil (Markup.element name attributes s)]
  exact .element htag h .nil

theorem ofText {name : Text} {attributes : List (Text × Text)} (htag : IsTag name attributes)
    (t : Text) : Spells (Markup.element name attributes (encode t))
      [.element name attributes (Tree.contentOfText t)] := by
  by_cases ht : t = []
  · subst ht
    exact single htag .nil
  · rw [← List.append_nil (Markup.element name attributes (encode t)), Tree.contentOfText,
      if_neg ht]
    exact .chars htag ht .nil

/-- Trees begin with a tag that opens an element. -/
theorem eq_nil_or_opens {s : Text} {ts : List Tree} (h : Spells s ts) :
    (s = [] ∧ ts = []) ∨ ∃ c u, s = '<' :: c :: u ∧ c ≠ '/' := by
  have hopens : ∀ {name : Text} {attributes : List (Text × Text)} (x : Text),
      IsTag name attributes → ∃ c u, tagText name attributes ++ x = '<' :: c :: u ∧ c ≠ '/' := by
    intro name attributes x htag
    have hchars := isNameChar_of_isName htag.named
    cases name with
    | nil => cases htag.named
    | cons c name =>
      refine ⟨c, name ++ (attributes.flatMap attributeText ++ x), by simp [tagText], ?_⟩
      rintro rfl
      exact absurd (hchars '/' List.mem_cons_self) (by decide)
  cases h with
  | nil => exact Or.inl ⟨rfl, rfl⟩
  | element htag =>
    rw [element_append]
    exact Or.inr (hopens _ htag)
  | chars htag =>
    rw [element_append]
    exact Or.inr (hopens _ htag)
  | lone htag =>
    rw [List.append_assoc]
    exact Or.inr (hopens _ htag)

theorem eq_nil_of_append_eq {s r r' : Text} {ts : List Tree} (h : Spells s ts)
    (hr : EndsContent r') (heq : s ++ r = r') : ts = [] ∧ r = r' := by
  rcases h.eq_nil_or_opens with ⟨rfl, rfl⟩ | ⟨c, u, rfl, hc⟩
  · exact ⟨rfl, heq⟩
  · rcases hr with rfl | ⟨v, rfl⟩
    · cases heq
    · exact absurd (List.cons.inj (List.cons.inj heq).2).1 hc

/-- Text is told from elements by its first character. -/
theorem append_ne_of_chars {s t x y : Text} {ts : List Tree} (h : Spells s ts) (ht : t ≠ []) :
    s ++ '<' :: x ≠ encode t ++ y := by
  intro heq
  obtain ⟨u, hu⟩ : ∃ u, s ++ '<' :: x = '<' :: u := by
    rcases h.eq_nil_or_opens with ⟨rfl, -⟩ | ⟨c, u, rfl, -⟩
    · exact ⟨x, rfl⟩
    · exact ⟨c :: u ++ '<' :: x, rfl⟩
  cases t with
  | nil => exact ht rfl
  | cons c t =>
    obtain ⟨d, v, hv⟩ := List.exists_cons_of_ne_nil (encodeChar_ne_nil c)
    have hmem : d ∈ encode (c :: t) := by
      change d ∈ encodeChar c ++ encode t
      rw [hv]
      exact List.mem_cons_self
    have hd : '<' = d := by
      rw [hu] at heq
      change _ = encodeChar c ++ encode t ++ y at heq
      rw [hv] at heq
      exact (List.cons.inj heq).1
    have hend := not_isEnd_of_mem_encode d hmem
    rw [← hd] at hend
    exact absurd hend (by decide)

/-- What a text spells depends on the text alone, whatever follows it. -/
theorem append_inj {s s' r r' : Text} {ts ts' : List Tree} (h : Spells s ts) (h' : Spells s' ts')
    (hr : EndsContent r) (hr' : EndsContent r') (heq : s ++ r = s' ++ r') : ts = ts' ∧ r = r' := by
  have hclose : ∀ x, EndsContent ('<' :: '/' :: x) := fun x => Or.inr ⟨x, rfl⟩
  -- Both first elements begin with a tag, which tells name, attributes and whether anything is
  -- inside; what is inside ends at the same closing tag by the induction hypothesis for it.
  induction h generalizing s' ts' r r' with
  | nil =>
    obtain ⟨rfl, rfl⟩ := h'.eq_nil_of_append_eq hr heq.symm
    exact ⟨rfl, rfl⟩
  | element htag hinner hs ihinner ih =>
    cases h' with
    | nil =>
      obtain ⟨hts, -⟩ := (Spells.element htag hinner hs).eq_nil_of_append_eq hr' heq
      cases hts
    | element htag' hinner' hs' =>
      rw [List.append_assoc, List.append_assoc] at heq
      obtain ⟨rfl, rfl, hcontent⟩ := element_append_inj htag htag' heq
      obtain ⟨rfl, hend⟩ := ihinner hinner' (hclose _) (hclose _) hcontent
      obtain ⟨rfl, rfl⟩ := ih hs' hr hr' (by simpa using hend)
      exact ⟨rfl, rfl⟩
    | chars htag' ht hs' =>
      rw [List.append_assoc, List.append_assoc] at heq
      obtain ⟨-, -, hcontent⟩ := element_append_inj htag htag' heq
      exact absurd hcontent (hinner.append_ne_of_chars ht)
    | lone htag' hs' =>
      simp only [List.append_assoc] at heq
      exact absurd heq (element_append_ne_lone htag htag')
  | chars htag ht hs ih =>
    cases h' with
    | nil =>
      obtain ⟨hts, -⟩ := (Spells.chars htag ht hs).eq_nil_of_append_eq hr' heq
      cases hts
    | element htag' hinner' hs' =>
      rw [List.append_assoc, List.append_assoc] at heq
      obtain ⟨-, -, hcontent⟩ := element_append_inj htag htag' heq
      exact absurd hcontent.symm (hinner'.append_ne_of_chars ht)
    | chars htag' ht' hs' =>
      rw [List.append_assoc, List.append_assoc] at heq
      obtain ⟨rfl, rfl, hcontent⟩ := element_append_inj htag htag' heq
      obtain ⟨rfl, hend⟩ := encode_append_inj (isEnd_head? rfl) (isEnd_head? rfl) hcontent
      obtain ⟨rfl, rfl⟩ := ih hs' hr hr' (by simpa using hend)
      exact ⟨rfl, rfl⟩
    | lone htag' hs' =>
      simp only [List.append_assoc] at heq
      exact absurd heq (element_append_ne_lone htag htag')
  | lone htag hs ih =>
    cases h' with
    | nil =>
      obtain ⟨hts, -⟩ := (Spells.lone htag hs).eq_nil_of_append_eq hr' heq
      cases hts
    | element htag' hinner' hs' =>
      simp only [List.append_assoc] at heq
      exact absurd heq.symm (element_append_ne_lone htag' htag)
    | chars htag' ht' hs' =>
      simp only [List.append_assoc] at heq
      exact absurd heq.symm (element_append_ne_lone htag' htag)
    | lone htag' hs' =>
      rw [List.append_assoc, List.append_assoc, List.append_assoc, List.append_assoc] at heq
      obtain ⟨rfl, rfl, hend⟩ := tagText_append_inj htag htag' (endsTag_lone _) (endsTag_lone _) heq
      obtain ⟨rfl, rfl⟩ := ih hs' hr hr' (List.append_cancel_left hend)
      exact ⟨rfl, rfl⟩

theorem unique {s : Text} {ts ts' : List Tree} (h : Spells s ts) (h' : Spells s ts') : ts = ts' :=
  (h.append_inj h' (Or.inl rfl) (Or.inl rfl) rfl).1

end Spells
end MapQuery.Markup
