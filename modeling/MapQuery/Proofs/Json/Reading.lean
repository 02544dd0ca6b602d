import MapQuery.Json.Decode
import MapQuery.Json.Printer

/-!
# Reading what was written

The reader finds in the compact text of a value that value and nothing else. This rests on its
numbers alone: whether a real number is the one nearest to its shortest digits is a matter of the
arithmetic of reading.
-/

set_option autoImplicit false

namespace MapQuery.Json

/-! ## Blanks -/

theorem skipBlanks_skipBlanks (t : Text) : skipBlanks (skipBlanks t) = skipBlanks t := by
  unfold skipBlanks
  induction t with
  | nil => rfl
  | cons c t ih =>
    rw [List.dropWhile_cons]
    split
    · exact ih
    · next hc => rw [List.dropWhile_cons, if_neg hc]

theorem skipBlanks_append {t r : Text} {c : Char} (h : skipBlanks t = c :: r) (u : Text) :
    skipBlanks (t ++ u) = c :: (r ++ u) := by
  have hne : (skipBlanks t).isEmpty = false := by rw [h]; rfl
  unfold skipBlanks at h hne ⊢
  rw [List.dropWhile_append, hne, h]
  rfl

theorem readItem_skipBlanks (fuel : Nat) (t : Text) :
    readItem fuel (skipBlanks t) = readItem fuel t := by
  cases fuel with
  | zero => rfl
  | succ fuel => simp only [readItem, skipBlanks_skipBlanks]

theorem readItems_skipBlanks (fuel : Nat) (t : Text) :
    readItems fuel (skipBlanks t) = readItems fuel t := by
  cases fuel with
  | zero => rfl
  | succ fuel => simp only [readItems, readItem_skipBlanks]

/-! ## Strings -/

/-- What four digits denote. -/
def unitOf? : Text → Option Nat
  | [a, b, c, d] => hexUnit? a b c d
  | _ => none

/-- The four digits of a control character denote it. -/
theorem exists_hexUnit {n : Nat} (h : n < 32) :
    ∃ a b c d, hexUnit n = [a, b, c, d] ∧ hexUnit? a b c d = some n := by
  have hall : ∀ n < 32, unitOf? (hexUnit n) = some n := by decide
  have hn := hall n h
  unfold unitOf? at hn
  split at hn
  · next a b c d hdigits => exact ⟨a, b, c, d, hdigits, hn⟩
  · cases hn

theorem scanString_hexUnit {n : Nat} (h : n < 32) (rest : Text) :
    scanString none ("\\u" ++ hexUnit n ++ rest) = (scanString none rest).push (Char.ofNat n) := by
  obtain ⟨a, b, c, d, hdigits, hunit⟩ := exists_hexUnit h
  have htrailing : isTrailing n = false := by
    simp only [isTrailing, Bool.and_eq_false_iff, decide_eq_false_iff_not]
    omega
  have hleading : isLeading n = false := by
    simp only [isLeading, Bool.and_eq_false_iff, decide_eq_false_iff_not]
    omega
  rw [hdigits]
  change scanString none ('\\' :: 'u' :: a :: b :: c :: d :: rest) = _
  simp [scanString, hunit, htrailing, hleading]

theorem scanString_plain {c : Char} (hquote : c ≠ '"') (hbackslash : c ≠ '\\')
    (hprintable : ¬ c.toNat < 32) (rest : Text) :
    scanString none (c :: rest) = (scanString none rest).push c := by
  simp [scanString, hquote, hbackslash, hprintable]

theorem scanString_stringChar (c : Char) (rest : Text) :
    scanString none (stringChar c ++ rest) = (scanString none rest).push c := by
  unfold stringChar
  split
  · subst_vars; rfl
  split
  · subst_vars; rfl
  split
  · subst_vars; rfl
  split
  · subst_vars; rfl
  split
  · subst_vars; rfl
  split
  · subst_vars; rfl
  split
  · subst_vars; rfl
  split
  · next hcontrol => rw [scanString_hexUnit hcontrol, Char.ofNat_toNat]
  · next hquote hbackslash _ _ _ _ _ hprintable =>
    exact scanString_plain hquote hbackslash hprintable rest

theorem scanString_flatMap (t rest : Text) :
    scanString none (t.flatMap stringChar ++ '"' :: rest) = ⟨.ok t, .ok rest⟩ := by
  induction t with
  | nil => rfl
  | cons c t ih =>
    rw [List.flatMap_cons, List.append_assoc, scanString_stringChar, ih]
    rfl

/-- A string is read up to its closing quote. -/
theorem readString_text (t rest : Text) :
    readString (t.flatMap stringChar ++ '"' :: rest) = .ok (.ok t, rest) := by
  rw [readString, scanString_flatMap]

/-! ## Numbers -/

/-- Whether no number goes on with a text. -/
def EndsNumber (t : Text) : Prop :=
  ∀ c ∈ t.head?, c.isDigit = false ∧ c ≠ '.' ∧ c ≠ 'e' ∧ c ≠ 'E'

theorem takeWhile_isDigit_append {r : Text} (hr : EndsNumber r) (t : Text) :
    (t ++ r).takeWhile Char.isDigit = t.takeWhile Char.isDigit := by
  have hend : r.takeWhile Char.isDigit = [] := by
    cases r with
    | nil => rfl
    | cons c r => rw [List.takeWhile_cons, if_neg (by simp [(hr c rfl).1])]
  rw [List.takeWhile_append, hend, List.append_nil]
  split
  · next h => exact ((List.takeWhile_prefix _).eq_of_length h).symm
  · rfl

theorem dropWhile_isDigit_append {r : Text} (hr : EndsNumber r) (t : Text) :
    (t ++ r).dropWhile Char.isDigit = t.dropWhile Char.isDigit ++ r := by
  have hend : r.dropWhile Char.isDigit = r := by
    cases r with
    | nil => rfl
    | cons c r => rw [List.dropWhile_cons, if_neg (by simp [(hr c rfl).1])]
  rw [List.dropWhile_append, hend]
  split
  · next h => rw [List.isEmpty_iff.1 h, List.nil_append]
  · rfl

/-- The digits of an exponent after its sign. -/
def exponentDigits (negative : Bool) (t : Text) : Except Break (Option (Bool × Text) × Text) :=
  if (t.takeWhile Char.isDigit).isEmpty then .error (missingDigit t)
  else .ok (some (negative, t.takeWhile Char.isDigit), t.dropWhile Char.isDigit)

/-- An exponent after its mark. -/
def exponentPart : Text → Except Break (Option (Bool × Text) × Text)
  | '+' :: t => exponentDigits false t
  | '-' :: t => exponentDigits true t
  | t => exponentDigits false t

theorem exponentPart_of_ne {c : Char} (hplus : c ≠ '+') (hminus : c ≠ '-') (t : Text) :
    exponentPart (c :: t) = exponentDigits false (c :: t) := by
  unfold exponentPart
  split
  · next heq => exact absurd (List.cons.inj heq).1 hplus
  · next heq => exact absurd (List.cons.inj heq).1 hminus
  · rfl

theorem splitExponent_mark {c : Char} (h : c = 'e' ∨ c = 'E') (t : Text) :
    splitExponent (c :: t) = exponentPart t := by
  simp only [splitExponent, if_pos h]
  split
  · rfl
  · rfl
  · next hplus hminus =>
    have hunsigned : exponentPart t = exponentDigits false t := by
      unfold exponentPart
      split
      · next t => exact absurd rfl (hplus t)
      · next t => exact absurd rfl (hminus t)
      · rfl
    exact hunsigned.symm

variable {r : Text} (hr : EndsNumber r)
include hr

theorem splitFraction_append {t u : Text} {fraction : Option Text}
    (h : splitFraction t = .ok (fraction, u)) :
    splitFraction (t ++ r) = .ok (fraction, u ++ r) := by
  unfold splitFraction at h
  split at h
  · next rest =>
    simp only at h
    split at h
    · cases h
    · next hdigits =>
      simp only [Except.ok.injEq, Prod.mk.injEq] at h
      obtain ⟨rfl, rfl⟩ := h
      simp only [List.cons_append, splitFraction, takeWhile_isDigit_append hr,
        dropWhile_isDigit_append hr, if_neg hdigits]
  · next hpoint =>
    simp only [Except.ok.injEq, Prod.mk.injEq] at h
    obtain ⟨rfl, rfl⟩ := h
    unfold splitFraction
    split
    · next rest heq =>
      cases t with
      | nil => exact absurd rfl (hr '.' (by simp [show r = '.' :: rest from heq])).2.1
      | cons c t =>
        obtain ⟨rfl, -⟩ := List.cons.inj heq
        exact absurd rfl (hpoint t)
    · rfl

theorem exponentDigits_append {negative : Bool} {t u : Text} {exponent : Option (Bool × Text)}
    (h : exponentDigits negative t = .ok (exponent, u)) :
    exponentDigits negative (t ++ r) = .ok (exponent, u ++ r) := by
  unfold exponentDigits at h ⊢
  rw [takeWhile_isDigit_append hr, dropWhile_isDigit_append hr]
  split at h
  · cases h
  · next hdigits =>
    rw [if_neg hdigits]
    simp only [Except.ok.injEq, Prod.mk.injEq] at h ⊢
    exact ⟨h.1, by rw [h.2]⟩

theorem splitExponent_append {t u : Text} {exponent : Option (Bool × Text)}
    (h : splitExponent t = .ok (exponent, u)) :
    splitExponent (t ++ r) = .ok (exponent, u ++ r) := by
  rcases t with - | ⟨c, t⟩
  · simp only [splitExponent, Except.ok.injEq, Prod.mk.injEq] at h
    obtain ⟨rfl, rfl⟩ := h
    cases r with
    | nil => rfl
    | cons c r =>
      obtain ⟨-, -, he, hE⟩ := hr c rfl
      simp [splitExponent, he, hE]
  · by_cases hmark : c = 'e' ∨ c = 'E'
    · rw [List.cons_append]
      rw [splitExponent_mark hmark] at h ⊢
      rcases t with - | ⟨d, t⟩
      · cases h
      · by_cases hplus : d = '+'
        · subst hplus
          exact exponentDigits_append hr h
        · by_cases hminus : d = '-'
          · subst hminus
            exact exponentDigits_append hr h
          · rw [List.cons_append]
            rw [exponentPart_of_ne hplus hminus] at h ⊢
            exact exponentDigits_append hr h
    · simp only [splitExponent, if_neg hmark, List.cons_append, Except.ok.injEq,
        Prod.mk.injEq] at h ⊢
      exact ⟨h.1, by rw [← h.2]; rfl⟩

theorem splitNumber_append {negative : Bool} {t u : Text} {n : Except Fault Number}
    (h : splitNumber negative t = .ok (n, u)) :
    splitNumber negative (t ++ r) = .ok (n, u ++ r) := by
  unfold splitNumber at h ⊢
  simp only [takeWhile_isDigit_append hr, dropWhile_isDigit_append hr] at h ⊢
  split at h
  · cases h
  · next hwhole =>
    rw [if_neg hwhole]
    split at h
    · cases h
    · next hzero =>
      rw [if_neg hzero]
      rcases hfraction : splitFraction (t.dropWhile Char.isDigit) with b | ⟨fraction, v⟩
      · rw [hfraction] at h
        cases h
      · rw [hfraction] at h
        rw [splitFraction_append hr hfraction]
        rcases hexponent : splitExponent v with b | ⟨exponent, w⟩
        · simp only [bind, Except.bind, hexponent] at h
          cases h
        · have hgoes := splitExponent_append hr hexponent
          simp only [bind, Except.bind, hexponent, hgoes] at h ⊢
          split at h
          · simp only [Except.ok.injEq, Prod.mk.injEq] at h ⊢
            exact ⟨h.1, by rw [h.2]⟩
          · simp only [Except.ok.injEq, Prod.mk.injEq] at h ⊢
            exact ⟨h.1, by rw [h.2]⟩

omit hr

theorem readWord_ne_number {word t u : Text} {s : Source} {x : Except Fault Number}
    (hs : s ≠ .number x) : readWord word s t ≠ (.number x, some u) := by
  unfold readWord
  split
  · rintro heq
    exact hs (Prod.mk.inj heq).1
  · rintro heq
    cases (Prod.mk.inj heq).1

theorem splitNumber_of_readNumber {negative : Bool} {t u : Text} {x : Except Fault Number}
    (h : readNumber negative t = (.number x, some u)) : splitNumber negative t = .ok (x, u) := by
  unfold readNumber at h
  split at h
  · next n rest hsplit =>
    simp only [Prod.mk.injEq, Source.number.injEq, Option.some.injEq] at h
    rw [hsplit, h.1, h.2]
  · cases h

/-- Where a number is read, it starts with its sign or a digit. -/
theorem exists_of_readItem_number {fuel : Nat} {t u : Text} {x : Except Fault Number}
    (h : readItem (fuel + 1) t = (.number x, some u)) :
    (∃ v, skipBlanks t = '-' :: v ∧ splitNumber true v = .ok (x, u)) ∨
      ∃ c v, skipBlanks t = c :: v ∧ c.isDigit = true ∧
        splitNumber false (c :: v) = .ok (x, u) := by
  simp only [readItem] at h
  split at h
  · exact absurd h (readWord_ne_number (by simp))
  · exact absurd h (readWord_ne_number (by simp))
  · exact absurd h (readWord_ne_number (by simp))
  · split at h <;> cases h
  · split at h <;> cases h
  · split at h <;> cases h
  · next v hskip => exact .inl ⟨v, hskip, splitNumber_of_readNumber h⟩
  · next c v _ _ _ _ _ _ _ hskip =>
    split at h
    · next hdigit => exact .inr ⟨c, v, hskip, hdigit, splitNumber_of_readNumber h⟩
    · cases h
  · cases h

/-- Whether the reader finds a number in its text. -/
def Number.ReadsBack (n : Number) : Prop := readItem 1 n.text = (.number (.ok n), some [])

theorem readItem_digit {c : Char} {t v : Text} (hc : c.isDigit = true)
    (hskip : skipBlanks t = c :: v) (fuel : Nat) :
    readItem (fuel + 1) t = readNumber false (c :: v) := by
  have hne : ∀ d : Char, d.isDigit = false → c ≠ d := by
    rintro d hd rfl
    rw [hc] at hd
    cases hd
  simp only [readItem, hskip]
  split
  · next heq => exact absurd (List.cons.inj heq).1 (hne 'n' (by decide))
  · next heq => exact absurd (List.cons.inj heq).1 (hne 't' (by decide))
  · next heq => exact absurd (List.cons.inj heq).1 (hne 'f' (by decide))
  · next heq => exact absurd (List.cons.inj heq).1 (hne '"' (by decide))
  · next heq => exact absurd (List.cons.inj heq).1 (hne '[' (by decide))
  · next heq => exact absurd (List.cons.inj heq).1 (hne '{' (by decide))
  · next heq => exact absurd (List.cons.inj heq).1 (hne '-' (by decide))
  · next heq =>
    obtain ⟨rfl, rfl⟩ := List.cons.inj heq
    rw [if_pos hc]
  · next heq => cases heq

theorem readItem_number {n : Number} (h : n.ReadsBack) (fuel : Nat) {r : Text}
    (hr : EndsNumber r) : readItem (fuel + 1) (n.text ++ r) = (.number (.ok n), some r) := by
  rcases exists_of_readItem_number h with ⟨v, hskip, hsplit⟩ | ⟨c, v, hskip, hdigit, hsplit⟩
  · have hread := splitNumber_append hr hsplit
    simp only [readItem, skipBlanks_append hskip, readNumber, hread, List.nil_append]
  · have hread := splitNumber_append hr hsplit
    rw [List.cons_append] at hread
    rw [readItem_digit hdigit (skipBlanks_append hskip r), readNumber, hread]
    rfl

/-! ## Values -/

mutual

/-- The numbers in a value. -/
def Value.numbers : Value → List Number
  | .number n => [n]
  | .array items => numbersOfItems items
  | .object members => numbersOfMembers members
  | .null | .bool _ | .string _ => []

def Value.numbersOfItems : List Value → List Number
  | [] => []
  | v :: rest => v.numbers ++ numbersOfItems rest

def Value.numbersOfMembers : List (Text × Value) → List Number
  | [] => []
  | (_, v) :: rest => v.numbers ++ numbersOfMembers rest

end

theorem readWord_append (word r : Text) (s : Source) :
    readWord word s (word ++ r) = (s, some r) := by
  rw [readWord, Text.dropBeginning?_eq_some_iff.2 rfl]

theorem endsNumber_cons {c : Char} (h : c = ',' ∨ c = ']' ∨ c = '}') (r : Text) :
    EndsNumber (c :: r) := by
  intro d hd
  obtain rfl : c = d := by simpa using hd
  rcases h with rfl | rfl | rfl <;> decide

/-- Where an item is read, no array ends. -/
theorem exists_skipBlanks_of_readItems {fuel : Nat} {t u : Text} {items : List Source}
    (h : readItems fuel t = (items, none, some u)) : ∃ c v, skipBlanks t = c :: v ∧ c ≠ ']' := by
  rw [← readItems_skipBlanks] at h
  rcases fuel with - | - | fuel
  · cases h
  · cases h
  · cases hskip : skipBlanks t with
    | nil =>
      rw [hskip] at h
      cases h
    | cons c v =>
      refine ⟨c, v, rfl, ?_⟩
      rintro rfl
      rw [hskip] at h
      cases h

/-- An array is its items between brackets. -/
theorem readItem_array {fuel : Nat} {t u : Text} {items : List Source}
    (h : readItems fuel t = (items, none, some u)) :
    readItem (fuel + 1) ('[' :: t) = (.array items none, some u) := by
  obtain ⟨c, v, hskip, hc⟩ := exists_skipBlanks_of_readItems h
  rw [← readItems_skipBlanks, hskip] at h
  have hopen : skipBlanks ('[' :: t) = '[' :: t := rfl
  simp only [readItem, hopen, hskip]
  split
  · next heq => exact absurd (List.cons.inj heq).1 hc
  · next heq => cases heq
  · rw [h]

/-- An object is its members between braces. -/
theorem readItem_object {fuel : Nat} {t u : Text} {members : List (Except Fault Text × Source)}
    (h : readMembers fuel ('"' :: t) = (members, none, some u)) :
    readItem (fuel + 1) ('{' :: '"' :: t) = (.object members none, some u) := by
  have hopen : skipBlanks ('{' :: '"' :: t) = '{' :: '"' :: t := rfl
  have hquote : skipBlanks ('"' :: t) = '"' :: t := rfl
  simp only [readItem, hopen, hquote]
  split
  · next heq => cases heq
  · rw [h]

open Value (compact compactItems compactMembers)

theorem stringText_append (k t : Text) :
    stringText k ++ ':' :: t = '"' :: (k.flatMap stringChar ++ '"' :: (':' :: t)) := by
  simp [stringText]

theorem readMembers_last {fuel : Nat} {k t r : Text} {s : Source}
    (h : readItem fuel t = (s, some ('}' :: r))) :
    readMembers (fuel + 1) (stringText k ++ ':' :: t) = ([(.ok k, s)], none, some r) := by
  have hquote (t : Text) : skipBlanks ('"' :: t) = '"' :: t := rfl
  have hcolon : skipBlanks (':' :: t) = ':' :: t := rfl
  have hclose : skipBlanks ('}' :: r) = '}' :: r := rfl
  rw [stringText_append]
  simp only [readMembers, hquote, readString_text, hcolon, h, hclose]

theorem readMembers_more {fuel : Nat} {k t r : Text} {s : Source}
    (h : readItem fuel t = (s, some (',' :: r))) :
    readMembers (fuel + 1) (stringText k ++ ':' :: t) =
      consMember (.ok k, s) (readMembers fuel r) := by
  have hquote (t : Text) : skipBlanks ('"' :: t) = '"' :: t := rfl
  have hcolon : skipBlanks (':' :: t) = ':' :: t := rfl
  have hcomma : skipBlanks (',' :: r) = ',' :: r := rfl
  rw [stringText_append]
  simp only [readMembers, hquote, readString_text, hcolon, h, hcomma]

theorem exists_joined_compactMembers (k : Text) (v : Value) (rest : List (Text × Value)) :
    ∃ t, Text.joined "," (compactMembers ((k, v) :: rest)) = '"' :: t := by
  cases rest with
  | nil => exact ⟨_, rfl⟩
  | cons m rest => exact ⟨_, rfl⟩

theorem Number.ReadsBack.text_ne_nil {n : Number} (h : n.ReadsBack) : n.text ≠ [] := by
  intro hnil
  rw [ReadsBack, hnil] at h
  cases h

mutual

/-- The text of a value is read as that value. The fuel is bounded by the length of the text, since
brackets and separators take a character each. -/
theorem readItem_compact : ∀ (v : Value), (∀ n ∈ v.numbers, n.ReadsBack) →
    ∀ (fuel : Nat) (r : Text),
    v.compact.length ≤ fuel → EndsNumber r →
    readItem fuel (v.compact ++ r) = (Source.ofValue v, some r)
  | .null, _, fuel + 1, r, _, _ => readWord_append "ull" r .null
  | .bool true, _, fuel + 1, r, _, _ => readWord_append "rue" r (.bool true)
  | .bool false, _, fuel + 1, r, _, _ => readWord_append "alse" r (.bool false)
  | .number n, h, fuel + 1, r, _, hr =>
    readItem_number (h n (by simp [Value.numbers])) fuel hr
  | .string t, _, fuel + 1, r, _, _ => by
    have htext : compact (.string t) ++ r = '"' :: (t.flatMap stringChar ++ '"' :: r) := by
      simp [compact, stringText]
    have hquote (t : Text) : skipBlanks ('"' :: t) = '"' :: t := rfl
    rw [htext]
    simp only [readItem, hquote, readString_text]
    rfl
  | .array [], _, fuel + 1, r, _, _ => rfl
  | .array (v :: rest), h, fuel + 1, r, hfuel, _ => by
    have htext : compact (.array (v :: rest)) ++ r =
        '[' :: (Text.joined "," (compactItems (v :: rest)) ++ ']' :: r) := by
      simp [compact]
    rw [htext]
    have hlength : (compact (.array (v :: rest))).length =
        (Text.joined "," (compactItems (v :: rest))).length + 1 + 1 := by
      simp only [compact, List.length_cons, List.length_append]
      rfl
    exact readItem_array (readItems_compactItems v rest h fuel r (by omega))
  | .object [], _, fuel + 1, r, _, _ => rfl
  | .object ((k, v) :: rest), h, fuel + 1, r, hfuel, _ => by
    have htext : compact (.object ((k, v) :: rest)) ++ r =
        '{' :: (Text.joined "," (compactMembers ((k, v) :: rest)) ++ '}' :: r) := by
      simp [compact]
    obtain ⟨t, ht⟩ := exists_joined_compactMembers k v rest
    have hlength : (compact (.object ((k, v) :: rest))).length =
        (Text.joined "," (compactMembers ((k, v) :: rest))).length + 1 + 1 := by
      simp only [compact, List.length_cons, List.length_append]
      rfl
    have hmembers := readMembers_compactMembers k v rest h fuel r (by omega)
    rw [htext]
    rw [ht] at hmembers ⊢
    exact readItem_object hmembers
  | .number n, h, 0, _, hfuel, _ => by
    have hne := (h n (by simp [Value.numbers])).text_ne_nil
    exact absurd (List.length_eq_zero_iff.1 (Nat.le_zero.1 hfuel)) hne

theorem readItems_compactItems : ∀ (v : Value) (rest : List Value),
    (∀ n ∈ Value.numbersOfItems (v :: rest), n.ReadsBack) → ∀ (fuel : Nat) (r : Text),
    (Text.joined "," (compactItems (v :: rest))).length < fuel →
    readItems fuel (Text.joined "," (compactItems (v :: rest)) ++ ']' :: r) =
      (Source.ofItems (v :: rest), none, some r)
  | v, [], h, fuel + 1, r, hfuel => by
    have hitem := readItem_compact v (fun n hn => h n (List.mem_append_left _ hn)) fuel (']' :: r)
      (by simpa [compactItems, Text.joined, Nat.lt_succ_iff] using hfuel)
      (endsNumber_cons (by simp) r)
    have hclose : skipBlanks (']' :: r) = ']' :: r := rfl
    simp only [compactItems, Text.joined, readItems, hitem, hclose]
    rfl
  | v, w :: rest, h, fuel + 1, r, hfuel => by
    have htext : Text.joined "," (compactItems (v :: w :: rest)) ++ ']' :: r =
        compact v ++ ',' :: (Text.joined "," (compactItems (w :: rest)) ++ ']' :: r) := by
      simp [compactItems, Text.joined]
    have hlength : (Text.joined "," (compactItems (v :: w :: rest))).length =
        v.compact.length + 1 + (Text.joined "," (compactItems (w :: rest))).length := by
      simp [compactItems, Text.joined]
      omega
    have hitem := readItem_compact v (fun n hn => h n (List.mem_append_left _ hn)) fuel
      (',' :: (Text.joined "," (compactItems (w :: rest)) ++ ']' :: r)) (by omega)
      (endsNumber_cons (by simp) _)
    have hrest := readItems_compactItems w rest (fun n hn => h n (List.mem_append_right _ hn))
      fuel r (by omega)
    have hcomma (t : Text) : skipBlanks (',' :: t) = ',' :: t := rfl
    rw [htext]
    simp only [readItems, hitem, hcomma, hrest]
    rfl
  | _, _, _, 0, _, hfuel => by cases hfuel

theorem readMembers_compactMembers : ∀ (k : Text) (v : Value) (rest : List (Text × Value)),
    (∀ n ∈ Value.numbersOfMembers ((k, v) :: rest), n.ReadsBack) → ∀ (fuel : Nat) (r : Text),
    (Text.joined "," (compactMembers ((k, v) :: rest))).length < fuel →
    readMembers fuel (Text.joined "," (compactMembers ((k, v) :: rest)) ++ '}' :: r) =
      (Source.ofMembers ((k, v) :: rest), none, some r)
  | k, v, [], h, fuel + 1, r, hfuel => by
    have hlength : v.compact.length + 1 ≤ (Text.joined "," (compactMembers [(k, v)])).length := by
      simp [compactMembers, Text.joined]
    have hvalue := readItem_compact v (fun n hn => h n (List.mem_append_left _ hn)) fuel ('}' :: r)
      (by omega) (endsNumber_cons (by simp) r)
    have htext : Text.joined "," (compactMembers [(k, v)]) ++ '}' :: r =
        stringText k ++ ':' :: (v.compact ++ '}' :: r) := by
      simp [compactMembers, Text.joined]
    rw [htext]
    exact readMembers_last hvalue
  | k, v, (k', w) :: rest, h, fuel + 1, r, hfuel => by
    have htext : Text.joined "," (compactMembers ((k, v) :: (k', w) :: rest)) ++ '}' :: r =
        stringText k ++ ':' :: (v.compact ++
          ',' :: (Text.joined "," (compactMembers ((k', w) :: rest)) ++ '}' :: r)) := by
      simp [compactMembers, Text.joined]
    have hlength : v.compact.length + 1 +
        (Text.joined "," (compactMembers ((k', w) :: rest))).length ≤
          (Text.joined "," (compactMembers ((k, v) :: (k', w) :: rest))).length := by
      simp [compactMembers, Text.joined]
      omega
    have hvalue := readItem_compact v (fun n hn => h n (List.mem_append_left _ hn)) fuel
      (',' :: (Text.joined "," (compactMembers ((k', w) :: rest)) ++ '}' :: r)) (by omega)
      (endsNumber_cons (by simp) _)
    have hrest := readMembers_compactMembers k' w rest
      (fun n hn => h n (List.mem_append_right _ hn)) fuel r (by omega)
    rw [htext, readMembers_more hvalue, hrest]
    rfl
  | _, _, _, _, 0, _, hfuel => by cases hfuel

end

/-- A reader of whole texts meets in the text of a value that value. -/
theorem readWhole_compact {α : Type} (reader : Reader α) {v : Value}
    (h : ∀ n ∈ v.numbers, n.ReadsBack) :
    readWhole reader v.compact = reader (Source.ofValue v) := by
  have hread := readItem_compact v h (2 * v.compact.length + 2) [] (by omega) (by
    intro c hc
    cases hc)
  rw [List.append_nil] at hread
  rw [readWhole, hread]
  cases hreader : reader (Source.ofValue v) <;> simp [hreader, bind, Except.bind, skipBlanks]

end MapQuery.Json
