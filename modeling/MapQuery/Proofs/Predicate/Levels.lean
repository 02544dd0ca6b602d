import MapQuery.Proofs.Predicate.Reading

/-!
# Levels of texts put together

Levels are read of each part of a text for itself: what is appended to a text whose parentheses and
quotes match goes on at its outermost level, and such a text in parentheses is one group.
-/

set_option autoImplicit false

namespace MapQuery

namespace Level

/-- A level that goes on with another after its gap and groups. -/
def follow (m : Level) : Text → List (Group × Text) → Level
  | gap, [] => ⟨gap ++ m.gap, m.groups⟩
  | gap, (g, gap') :: rest => ⟨gap, (g, (follow m gap' rest).gap) :: (follow m gap' rest).groups⟩

def append (l m : Level) : Level := follow m l.gap l.groups

theorem follow_empty (gap : Text) (groups : List (Group × Text)) :
    follow empty gap groups = ⟨gap, groups⟩ := by
  induction groups generalizing gap with
  | nil => simp [follow, empty]
  | cons g rest ih => simp [follow, ih]

@[simp] theorem append_empty (l : Level) : l.append empty = l := follow_empty l.gap l.groups

@[simp] theorem empty_append (l : Level) : empty.append l = l := rfl

theorem widen_append (c : Char) (l m : Level) : (l.widen c).append m = (l.append m).widen c := by
  obtain ⟨gap, groups⟩ := l
  cases groups <;> rfl

theorem before_append (g : Group) (l m : Level) :
    (l.before g).append m = (l.append m).before g := rfl

@[simp] theorem text_empty : empty.text = [] := rfl

@[simp] theorem text_widen (c : Char) (l : Level) : (l.widen c).text = c :: l.text := rfl

@[simp] theorem text_before (g : Group) (l : Level) : (l.before g).text = g.text ++ l.text := by
  simp [before, text]

def widenBy (t : Text) (l : Level) : Level := { l with gap := t ++ l.gap }

@[simp] theorem widenBy_nil (l : Level) : l.widenBy [] = l := rfl

end Level

/-- Whether a character is a parenthesis or a quote. -/
def isMark (c : Char) : Bool := c == '(' || c == ')' || c == '\''

theorem isMark_of_isBlank {c : Char} (h : isBlank c = true) : isMark c = false := by
  have hmark : ∀ d, isBlank d = false → c ≠ d := by
    rintro d hd rfl
    rw [hd] at h
    cases h
  simp [isMark, hmark '(' (by decide), hmark ')' (by decide), hmark '\'' (by decide)]

namespace Levels

/-- Levels the outermost of which goes on with other levels. -/
def follow (ms : Levels) : Level → List Level → Levels
  | l, [] => (l.append ms.1, ms.2)
  | l, k :: rest => (l, (follow ms k rest).1 :: (follow ms k rest).2)

/-- The text of levels, with the parentheses that close them. -/
def text (ls : Levels) : Text := ls.1.text ++ ls.2.flatMap fun l => ')' :: l.text

theorem follow_widen (ms : Levels) (c : Char) (l : Level) (rest : List Level) :
    follow ms (l.widen c) rest = (follow ms l rest).widen c := by
  cases rest with
  | nil => simp [follow, widen, Level.widen_append]
  | cons k rest => rfl

theorem follow_opened {ms ls ls' : Levels} (h : opened ls = some ls') :
    opened (follow ms ls.1 ls.2) = some (follow ms ls'.1 ls'.2) := by
  obtain ⟨inner, rest⟩ := ls
  cases rest with
  | nil => simp [opened] at h
  | cons outer rest =>
    obtain rfl := Option.some.inj h
    cases rest with
    | nil => simp [follow, opened, Level.before_append]
    | cons k rest => simp [follow, opened]

/-- What follows a text goes on at the outermost level of the text. -/
theorem ofText?_append {quoted : Bool} {s t : Text} {ls ms : Levels}
    (hs : ofText? quoted s = some ls) (ht : ofText? false t = some ms) :
    ofText? quoted (s ++ t) = some (follow ms ls.1 ls.2) := by
  -- Every step of the reader but the last commutes with following at the outermost level.
  fun_induction ofText? quoted s generalizing ls with
  | case1 => simp at hs
  | case2 quoted hquoted =>
    obtain rfl : (Level.empty, []) = ls := by simpa using hs
    obtain rfl : quoted = false := by simpa using hquoted
    simpa [follow] using ht
  | case3 c s ih =>
    obtain ⟨ks, hks, rfl⟩ := Option.map_eq_some_iff.1 hs
    simp only [List.cons_append, ofText?, ih hks]
    exact congrArg some (follow_widen ms c ks.1 ks.2).symm
  | case4 s ih =>
    obtain ⟨ks, hks, hopened⟩ := Option.bind_eq_some_iff.1 hs
    simp only [List.cons_append, ofText?, if_true, ih hks, Option.bind_some]
    exact follow_opened hopened
  | case5 s hne ih =>
    obtain ⟨ks, hks, rfl⟩ := Option.map_eq_some_iff.1 hs
    simp only [List.cons_append, ofText?, if_neg hne, if_true, ih hks, Option.map_some]
    rfl
  | case6 c s hopen hclose ih =>
    obtain ⟨ks, hks, rfl⟩ := Option.map_eq_some_iff.1 hs
    simp only [List.cons_append, ofText?, if_neg hopen, if_neg hclose, ih hks]
    exact congrArg some (follow_widen ms c ks.1 ks.2).symm

theorem text_opened {ls ls' : Levels} (h : opened ls = some ls') :
    ls'.text = '(' :: ls.text := by
  obtain ⟨inner, rest⟩ := ls
  cases rest with
  | nil => simp [opened] at h
  | cons outer rest =>
    obtain rfl := Option.some.inj h
    simp [text, Level.group, Text.paren]

theorem text_of_ofText? {quoted : Bool} {t : Text} {ls : Levels} (h : ofText? quoted t = some ls) :
    ls.text = t := by
  fun_induction ofText? quoted t generalizing ls with
  | case1 => simp at h
  | case2 quoted hquoted =>
    obtain rfl : (Level.empty, []) = ls := by simpa using h
    rfl
  | case3 c t ih =>
    obtain ⟨ks, hks, rfl⟩ := Option.map_eq_some_iff.1 h
    simp [text, widen, ← ih hks]
  | case4 t ih =>
    obtain ⟨ks, hks, hopened⟩ := Option.bind_eq_some_iff.1 h
    rw [text_opened hopened, ih hks]
  | case5 t hne ih =>
    obtain ⟨ks, hks, rfl⟩ := Option.map_eq_some_iff.1 h
    simp [text, closed, ← ih hks]
  | case6 c t hopen hclose ih =>
    obtain ⟨ks, hks, rfl⟩ := Option.map_eq_some_iff.1 h
    simp [text, widen, ← ih hks]

theorem ofText?_unmarked {a : Text} (ha : ∀ c ∈ a, isMark c = false) (t : Text) :
    ofText? false (a ++ t) = (ofText? false t).map fun ls => (ls.1.widenBy a, ls.2) := by
  induction a with
  | nil => simp
  | cons c a ih =>
    obtain ⟨⟨hopen, hclose⟩, hquote⟩ : (c ≠ '(' ∧ c ≠ ')') ∧ c ≠ '\'' := by
      simpa [isMark] using ha c (by simp)
    have hrest := ih fun d hd => ha d (List.mem_cons_of_mem c hd)
    have hstay : (c == '\'') = false := by simpa using hquote
    simp only [List.cons_append, ofText?, if_neg hopen, if_neg hclose, hstay, hrest, Option.map_map]
    rfl

theorem ofText?_of_append_blank {quoted : Bool} {s b : Text} {ls : Levels}
    (hb : Text.blank b = true) (h : ofText? quoted (s ++ b) = some ls) :
    ∃ ks, ofText? quoted s = some ks ∧ ls = follow (⟨b, []⟩, []) ks.1 ks.2 := by
  have hunmarked : ∀ c ∈ b, isMark c = false := fun c hc =>
    isMark_of_isBlank (Text.isBlank_of_blank hb c hc)
  fun_induction ofText? quoted s generalizing ls with
  | case1 =>
    have hnone : ∀ b : Text, (∀ c ∈ b, isMark c = false) → ofText? true b = none := by
      intro b hb
      induction b with
      | nil => rfl
      | cons c b ih =>
        have hc : (c != '\'') = true := by
          have := hb c (by simp)
          simp_all [isMark]
        simp [ofText?, hc, ih fun d hd => hb d (List.mem_cons_of_mem c hd)]
    rw [List.nil_append, hnone b hunmarked] at h
    simp at h
  | case2 quoted hquoted =>
    obtain rfl : quoted = false := by simpa using hquoted
    have hread := ofText?_unmarked hunmarked []
    simp only [List.nil_append, List.append_nil] at h hread
    rw [hread] at h
    obtain rfl := Option.some.inj h
    refine ⟨(Level.empty, []), rfl, ?_⟩
    rw [follow, Level.empty_append]
    simp [Level.widenBy, Level.empty]
  | case3 c s ih =>
    obtain ⟨ms, hms, rfl⟩ := Option.map_eq_some_iff.1 h
    obtain ⟨ks, hks, rfl⟩ := ih hms
    exact ⟨ks.widen c, by rw [hks]; rfl, (follow_widen _ c ks.1 ks.2).symm⟩
  | case4 s ih =>
    simp only [List.cons_append, ofText?, if_true] at h
    obtain ⟨ms, hms, hopened⟩ := Option.bind_eq_some_iff.1 h
    obtain ⟨⟨inner, outer⟩, hks, rfl⟩ := ih hms
    cases outer with
    | nil => simp [follow, opened] at hopened
    | cons outer rest =>
      refine ⟨(outer.before inner.group, rest), by rw [hks]; rfl, ?_⟩
      exact Option.some.inj (hopened.symm.trans (follow_opened rfl))
  | case5 s hne ih =>
    simp only [List.cons_append, ofText?, if_neg hne, if_true] at h
    obtain ⟨ms, hms, rfl⟩ := Option.map_eq_some_iff.1 h
    obtain ⟨ks, hks, rfl⟩ := ih hms
    exact ⟨ks.closed, by rw [hks]; rfl, rfl⟩
  | case6 c s hopen hclose ih =>
    simp only [List.cons_append, ofText?, if_neg hopen, if_neg hclose] at h
    obtain ⟨ms, hms, rfl⟩ := Option.map_eq_some_iff.1 h
    obtain ⟨ks, hks, rfl⟩ := ih hms
    exact ⟨ks.widen c, by rw [hks]; rfl, (follow_widen _ c ks.1 ks.2).symm⟩

end Levels

namespace Level

theorem ofText?_eq_some_iff {t : Text} {l : Level} :
    ofText? t = some l ↔ Levels.ofText? false t = some (l, []) := by
  unfold ofText?
  constructor
  · intro h
    split at h
    · next k hk =>
      obtain rfl := Option.some.inj h
      exact hk
    · simp at h
  · intro h
    rw [h]

theorem text_of_ofText? {t : Text} {l : Level} (h : ofText? t = some l) : l.text = t := by
  simpa [Levels.text] using Levels.text_of_ofText? (ofText?_eq_some_iff.1 h)

theorem levels_append {s t : Text} {l : Level} {ms : Levels} (hs : ofText? s = some l)
    (ht : Levels.ofText? false t = some ms) :
    Levels.ofText? false (s ++ t) = some (l.append ms.1, ms.2) :=
  Levels.ofText?_append (ofText?_eq_some_iff.1 hs) ht

theorem levels_paren {s t : Text} {l : Level} {ms : Levels} (hs : ofText? s = some l)
    (ht : Levels.ofText? false t = some ms) :
    Levels.ofText? false (Text.paren s ++ t) = some (ms.1.before l.group, ms.2) := by
  have hclose : Levels.ofText? false (')' :: t) = some (empty, ms.1 :: ms.2) := by
    simp [Levels.ofText?, ht, Levels.closed]
  have hinside : Levels.ofText? false (s ++ ')' :: t) = some (l, ms.1 :: ms.2) := by
    simpa using levels_append hs hclose
  simp [Text.paren, Levels.ofText?, hinside, Levels.opened]

theorem ofText?_paren_append {s t : Text} {l m : Level} (hs : ofText? s = some l)
    (ht : ofText? t = some m) : ofText? (Text.paren s ++ t) = some (m.before l.group) :=
  ofText?_eq_some_iff.2 (levels_paren hs (ofText?_eq_some_iff.1 ht))

theorem ofText?_nil : ofText? [] = some empty := rfl

theorem ofText?_paren {s : Text} {l : Level} (hs : ofText? s = some l) :
    ofText? (Text.paren s) = some (empty.before l.group) := by
  simpa using ofText?_paren_append hs ofText?_nil

theorem ofText?_unmarked {a : Text} (ha : ∀ c ∈ a, isMark c = false) (t : Text) :
    ofText? (a ++ t) = (ofText? t).map (widenBy a) := by
  simp only [ofText?, Levels.ofText?_unmarked ha]
  rcases Levels.ofText? false t with - | ⟨l, - | ⟨k, rest⟩⟩ <;> rfl

end Level

/-- Every level is what is read of its own text. -/
theorem Levels.ofText?_text {quoted : Bool} {t : Text} {ls : Levels}
    (h : ofText? quoted t = some ls) :
    ofText? quoted ls.1.text = some (ls.1, []) ∧ ∀ l ∈ ls.2, Level.ofText? l.text = some l := by
  fun_induction ofText? quoted t generalizing ls with
  | case1 => simp at h
  | case2 quoted hquoted =>
    obtain rfl : (Level.empty, []) = ls := by simpa using h
    simp [ofText?, hquoted]
  | case3 c t ih =>
    obtain ⟨ks, hks, rfl⟩ := Option.map_eq_some_iff.1 h
    obtain ⟨hinner, houter⟩ := ih hks
    exact ⟨by simp [widen, ofText?, hinner], houter⟩
  | case4 t ih =>
    obtain ⟨⟨inner, outer⟩, hks, hopened⟩ := Option.bind_eq_some_iff.1 h
    obtain ⟨hinner, houter⟩ := ih hks
    cases outer with
    | nil => simp [opened] at hopened
    | cons outer rest =>
      obtain rfl := Option.some.inj hopened
      have hread := Level.ofText?_paren_append (Level.ofText?_eq_some_iff.2 hinner)
        (houter outer (by simp))
      refine ⟨?_, fun l hl => houter l (List.mem_cons_of_mem _ hl)⟩
      simpa [Level.group] using Level.ofText?_eq_some_iff.1 hread
  | case5 t hne ih =>
    obtain ⟨ks, hks, rfl⟩ := Option.map_eq_some_iff.1 h
    obtain ⟨hinner, houter⟩ := ih hks
    refine ⟨rfl, fun l hl => ?_⟩
    rcases List.mem_cons.1 hl with rfl | hl
    · exact Level.ofText?_eq_some_iff.2 hinner
    · exact houter l hl
  | case6 c t hopen hclose ih =>
    obtain ⟨ks, hks, rfl⟩ := Option.map_eq_some_iff.1 h
    obtain ⟨hinner, houter⟩ := ih hks
    exact ⟨by simp [widen, ofText?, hopen, hclose, hinner], houter⟩

namespace Level

/-- Whether every group at a level is what is read of its own text. -/
def Sound (l : Level) : Prop := ∀ g ∈ l.groups, ∃ k, ofText? k.text = some k ∧ g.1 = k.group

end Level

theorem Levels.sound_of_ofText? {quoted : Bool} {t : Text} {ls : Levels}
    (h : ofText? quoted t = some ls) : ∀ l ∈ ls.1 :: ls.2, l.Sound := by
  fun_induction ofText? quoted t generalizing ls with
  | case1 => simp at h
  | case2 =>
    obtain rfl : (Level.empty, []) = ls := by simpa using h
    simp [Level.Sound, Level.empty]
  | case3 c t ih | case6 c t _ _ ih =>
    obtain ⟨ks, hks, rfl⟩ := Option.map_eq_some_iff.1 h
    intro l hl
    rcases List.mem_cons.1 hl with rfl | hl
    · exact ih hks ks.1 (by simp)
    · exact ih hks l (List.mem_cons_of_mem _ hl)
  | case4 t ih =>
    obtain ⟨⟨inner, outer⟩, hks, hopened⟩ := Option.bind_eq_some_iff.1 h
    cases outer with
    | nil => simp [opened] at hopened
    | cons outer rest =>
      obtain rfl := Option.some.inj hopened
      intro l hl
      rcases List.mem_cons.1 hl with rfl | hl
      · intro g hg
        rcases List.mem_cons.1 hg with rfl | hg
        · exact ⟨inner, Level.ofText?_eq_some_iff.2 (ofText?_text hks).1, rfl⟩
        · exact ih hks outer (by simp) g hg
      · exact ih hks l (by simp [hl])
  | case5 t hne ih =>
    obtain ⟨ks, hks, rfl⟩ := Option.map_eq_some_iff.1 h
    intro l hl
    rcases List.mem_cons.1 hl with rfl | hl
    · intro g hg
      exact absurd hg List.not_mem_nil
    · exact ih hks l hl

namespace Level

theorem sound_of_ofText? {t : Text} {l : Level} (h : ofText? t = some l) : l.Sound :=
  Levels.sound_of_ofText? (ofText?_eq_some_iff.1 h) l (by simp)

end Level
end MapQuery
