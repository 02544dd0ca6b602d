import Mathlib.Data.Prod.Lex
import MapQuery.Dialect.Basic
import MapQuery.Proofs.Markup.Entities
import MapQuery.Proofs.Text.Figures
import MapQuery.Proofs.Time.Timestamps

/-!
# Time windows as they are sent

Which moments a data source takes for the bounds of a window, and when no feature whose validity
overlaps the window is lost to it. Both bounds are cut off to the millisecond, though only the lower
one may be; and a leap second has no count of milliseconds of its own.
-/

set_option autoImplicit false

namespace MapQuery

/-- A second and a nanosecond, not bounded by the calendar. -/
abbrev Moment := Int ×ₗ Nat

def Instant.moment (a : Instant) : Moment := toLex (a.second, a.nano)

theorem Instant.notAfter_iff {a b : Instant} : a.notAfter b = true ↔ a.moment ≤ b.moment := by
  simp only [notAfter, moment, Prod.Lex.toLex_le_toLex, Bool.or_eq_true, Bool.and_eq_true,
    decide_eq_true_eq, beq_iff_eq]

theorem Instant.moment_shown (a : Instant) :
    (a.shown true).moment = toLex (a.second, a.nano / 1000000 * 1000000) := by
  rw [moment, second_shown, nano_shown]

/-- What a count of milliseconds since the start of 1970 stands for. -/
def momentOfMilliseconds (count : Int) : Moment :=
  toLex (count / 1000, (count % 1000).toNat * 1000000)

/-- Whether what lasts from `first` to `last` overlaps what lasts from `lower` to `upper`. -/
def Overlaps (first last lower upper : Moment) : Prop := first ≤ upper ∧ lower ≤ last

/-- What stands before, between and after the timestamps of a window, the upper bound first. -/
structure TimeFrame where
  opening : Text
  middle : Text
  ending : Text

/-- A window as a predicate, in the languages that write it as one. -/
def Dialect.timeFrame? (d : Dialect) (w : TimeWindow) : Option TimeFrame :=
  match d with
  | .cqlText => some
    { opening := "((" ++ w.startColumn ++ " <= "
      middle := ") AND (" ++ w.endColumn ++ " >= "
      ending := "))" }
  | .filterMarkup => some
    { opening := "<ogc:And>" ++ ("<ogc:PropertyIsLessThanOrEqualTo>" ++ ("<ogc:PropertyName>" ++
        Markup.encode w.startColumn ++ "</ogc:PropertyName>" ++ "<ogc:Literal>"))
      middle := "</ogc:Literal>" ++ ("</ogc:PropertyIsLessThanOrEqualTo>" ++
        ("<ogc:PropertyIsGreaterThanOrEqualTo>" ++ ("<ogc:PropertyName>" ++
          Markup.encode w.endColumn ++ "</ogc:PropertyName>" ++ "<ogc:Literal>")))
      ending := "</ogc:Literal>" ++ ("</ogc:PropertyIsGreaterThanOrEqualTo>" ++ "</ogc:And>") }
  | .whereClause => none

/-- The bounds that a data source reads from what is sent of a window: two timestamps in a
predicate, or two counts of milliseconds. -/
inductive Dialect.Sends (w : TimeWindow) (d : Dialect) :
    TimePart → (lower upper : Moment) → Prop
  | timestamps {f : TimeFrame} {lower upper : Text} {a b : Instant}
      (hf : d.timeFrame? w = some f) (hlower : lower.IsFigures) (hupper : upper.IsFigures)
      (ha : Timestamp.read? lower = some a) (hb : Timestamp.read? upper = some b) :
      Sends w d (.predicate (f.opening ++ upper ++ f.middle ++ lower ++ f.ending))
        a.moment b.moment
  | counts (a b : Int) (hd : d = .whereClause) :
      Sends w d (.parameter "time" (Text.integer a ++ "," ++ Text.integer b))
        (momentOfMilliseconds a) (momentOfMilliseconds b)

def Dialect.sentMoment (d : Dialect) (a : Instant) : Moment :=
  match d with
  | .whereClause => momentOfMilliseconds a.milliseconds
  | _ => (a.shown true).moment

namespace Text

theorem ne_comma_of_mem_integer {z : Int} {c : Char} (h : c ∈ integer z) : (c != ',') = true := by
  have hdigits : ∀ c ∈ natural z.natAbs, (c != ',') = true := by
    intro c hc
    rw [bne_iff_ne]
    rintro rfl
    exact absurd (isDigit_of_mem_natural hc) (by decide)
  unfold integer at h
  split at h
  · rcases List.mem_cons.1 h with rfl | hc
    · decide
    · exact hdigits c hc
  · exact hdigits c h

theorem integers_inj {a b c d : Int}
    (h : integer a ++ "," ++ integer b = integer c ++ "," ++ integer d) : a = c ∧ b = d := by
  rw [List.append_assoc, List.append_assoc] at h
  obtain ⟨hfirst, hrest⟩ := append_inj_of_class (p := (· != ','))
    (fun _ => ne_comma_of_mem_integer) (fun _ => ne_comma_of_mem_integer) (by simp) (by simp) h
  exact ⟨integer_injective hfirst, integer_injective (List.append_cancel_left hrest)⟩

end Text

/-- A literal of figures ends where the frame goes on. -/
theorem TimeFrame.literals_inj {f : TimeFrame} {c d : Char} {s t s' t' : Text}
    (hmiddle : f.middle.head? = some c) (hc : isFigure c = false)
    (hending : f.ending.head? = some d) (hd : isFigure d = false)
    (hs : s.IsFigures) (ht : t.IsFigures) (hs' : s'.IsFigures) (ht' : t'.IsFigures)
    (h : f.opening ++ s ++ f.middle ++ t ++ f.ending =
      f.opening ++ s' ++ f.middle ++ t' ++ f.ending) : s = s' ∧ t = t' := by
  have hcut (u : Text) : ∀ e ∈ (f.middle ++ u).head?, isFigure e = false := by
    intro e he
    rw [List.head?_append, hmiddle, Option.some_or] at he
    rwa [← Option.some.inj he]
  have hend : ∀ e ∈ f.ending.head?, isFigure e = false := by
    intro e he
    rw [hending] at he
    rwa [← Option.some.inj he]
  simp only [List.append_assoc] at h
  obtain ⟨hfirst, hrest⟩ :=
    Text.append_inj_of_class hs hs' (hcut _) (hcut _) (List.append_cancel_left h)
  exact ⟨hfirst,
    (Text.append_inj_of_class ht ht' hend hend (List.append_cancel_left hrest)).1⟩

namespace Dialect

variable {d : Dialect} {w : TimeWindow}

theorem exists_mark_of_frame {f : TimeFrame} (hf : d.timeFrame? w = some f) :
    ∃ c, isFigure c = false ∧ f.middle.head? = some c ∧ f.ending.head? = some c := by
  cases d with
  | cqlText =>
    cases hf
    exact ⟨')', by decide, rfl, rfl⟩
  | filterMarkup =>
    have hmark : ("</ogc:Literal>" : Text).head? = some '<' := by decide
    cases hf
    refine ⟨'<', by decide, ?_, ?_⟩
    · rw [List.head?_append, hmark, Option.some_or]
    · rw [List.head?_append, hmark, Option.some_or]
  | whereClause => cases hf

theorem element_eq (name before after : Text) (hbefore : "<" ++ ("ogc:" ++ name) ++ ">" = before)
    (hafter : "</" ++ ("ogc:" ++ name) ++ ">" = after) (content : Text) :
    FilterMarkup.element name content = before ++ (content ++ after) := by
  have htags : FilterMarkup.element name content =
      "<" ++ ("ogc:" ++ name) ++ ([] : Text) ++ ">" ++ content ++ "</" ++ ("ogc:" ++ name) ++ ">" :=
    rfl
  rw [htags, List.append_nil, hbefore, ← hafter]
  simp only [List.append_assoc]

theorem grammar_time_eq {f : TimeFrame} (hf : d.timeFrame? w = some f) (o : CompileOptions)
    (a b : Instant) : (d.grammar o).time w false a b = .predicate (f.opening ++
      Timestamp.write true b ++ f.middle ++ Timestamp.write true a ++ f.ending) := by
  cases d with
  | cqlText =>
    cases hf
    simp [grammar, CqlText.grammar, CqlText.time, Text.paren]
  | filterMarkup =>
    cases hf
    have hand := element_eq Connective.and.name "<ogc:And>" "</ogc:And>" (by decide) (by decide)
    have hupper := element_eq Relation.lessOrEqual.name "<ogc:PropertyIsLessThanOrEqualTo>"
      "</ogc:PropertyIsLessThanOrEqualTo>" (by decide) (by decide)
    have hlower := element_eq Relation.greaterOrEqual.name "<ogc:PropertyIsGreaterThanOrEqualTo>"
      "</ogc:PropertyIsGreaterThanOrEqualTo>" (by decide) (by decide)
    have hproperty := element_eq "PropertyName" "<ogc:PropertyName>" "</ogc:PropertyName>"
      (by decide) (by decide)
    have hliteral := element_eq "Literal" "<ogc:Literal>" "</ogc:Literal>" (by decide) (by decide)
    change TimePart.predicate (FilterMarkup.time w false a b) = _
    simp only [FilterMarkup.time, FilterMarkup.join, FilterMarkup.property, hand, hupper, hlower,
      hproperty, hliteral, List.flatten_cons, List.flatten_nil, List.append_nil,
      List.append_assoc, Bool.not_false]
  | whereClause => cases hf

theorem sentMoment_of_frame {f : TimeFrame} (hf : d.timeFrame? w = some f) (a : Instant) :
    d.sentMoment a = (a.shown true).moment := by
  cases d with
  | cqlText => rfl
  | filterMarkup => rfl
  | whereClause => cases hf

/-- From what is sent of a window each bound is read in one way. -/
theorem sends_iff (o : CompileOptions) {a b : Instant} {lower upper : Moment} :
    d.Sends w ((d.grammar o).time w false a b) lower upper ↔
      lower = d.sentMoment a ∧ upper = d.sentMoment b := by
  generalize hpart : (d.grammar o).time w false a b = part
  constructor
  · intro h
    cases h with
    | timestamps hf hlower hupper ha hb =>
      rw [grammar_time_eq hf] at hpart
      obtain ⟨c, hc, hmiddle, hending⟩ := exists_mark_of_frame hf
      obtain ⟨rfl, rfl⟩ := TimeFrame.literals_inj hmiddle hc hending hc
        (Timestamp.isFigures_write true b) (Timestamp.isFigures_write true a) hupper hlower
        (TimePart.predicate.inj hpart)
      rw [Timestamp.read?_write] at ha hb
      rw [sentMoment_of_frame hf, sentMoment_of_frame hf, ← Option.some.inj ha,
        ← Option.some.inj hb]
      exact ⟨rfl, rfl⟩
    | counts x y hd =>
      subst hd
      obtain ⟨hx, hy⟩ := Text.integers_inj (TimePart.parameter.inj hpart).2
      rw [← hx, ← hy]
      exact ⟨rfl, rfl⟩
  · rintro ⟨rfl, rfl⟩
    rw [← hpart]
    cases hf : d.timeFrame? w with
    | some f =>
      rw [grammar_time_eq hf, sentMoment_of_frame hf, sentMoment_of_frame hf]
      exact .timestamps hf (Timestamp.isFigures_write true a) (Timestamp.isFigures_write true b)
        (Timestamp.read?_write true a) (Timestamp.read?_write true b)
    | none =>
      cases d with
      | cqlText => cases hf
      | filterMarkup => cases hf
      | whereClause => exact .counts a.milliseconds b.milliseconds rfl

theorem sentMoment_eq (d : Dialect) (a : Instant) :
    d.sentMoment a = if d = .whereClause ∧ 1000000000 ≤ a.nano then
      toLex (a.second + 1, (a.nano - 1000000000) / 1000000 * 1000000)
    else toLex (a.second, a.nano / 1000000 * 1000000) := by
  have hnano := a.nano_lt
  cases d with
  | cqlText => exact (a.moment_shown).trans (if_neg (by simp)).symm
  | filterMarkup => exact (a.moment_shown).trans (if_neg (by simp)).symm
  | whereClause =>
    simp only [sentMoment, momentOfMilliseconds, Instant.milliseconds, true_and]
    split
    · rw [show (a.second * 1000 + (a.nano : Int) / 1000000) / 1000 = a.second + 1 by omega,
        show ((a.second * 1000 + (a.nano : Int) / 1000000) % 1000).toNat =
          (a.nano - 1000000000) / 1000000 by omega]
    · rw [show (a.second * 1000 + (a.nano : Int) / 1000000) / 1000 = a.second by omega,
        show ((a.second * 1000 + (a.nano : Int) / 1000000) % 1000).toNat = a.nano / 1000000 by
          omega]

/-- The lower bound is cut off, which loses nothing, unless it is a leap second that is counted as
the second after it. -/
theorem sentMoment_le_iff {a : Instant} :
    d.sentMoment a ≤ a.moment ↔ d ≠ .whereClause ∨ a.nano < 1000000000 := by
  rw [sentMoment_eq, Instant.moment]
  split
  · next hleap =>
    simp only [Prod.Lex.toLex_le_toLex, ne_eq, hleap.1, not_true_eq_false, false_or]
    omega
  · next hplain =>
    rw [not_and_or, Nat.not_le] at hplain
    simp only [Prod.Lex.toLex_le_toLex, true_and, ne_eq, hplain, iff_true]
    omega

/-- The upper bound is cut off too, which loses what is left of its millisecond. -/
theorem le_sentMoment_iff {a : Instant} :
    a.moment ≤ d.sentMoment a ↔
      a.nano % 1000000 = 0 ∨ d = .whereClause ∧ 1000000000 ≤ a.nano := by
  rw [sentMoment_eq, Instant.moment]
  split
  · next hleap =>
    simp only [Prod.Lex.toLex_le_toLex, hleap, and_true, or_true, iff_true]
    omega
  · next hplain =>
    simp only [Prod.Lex.toLex_le_toLex, true_and, hplain, or_false]
    omega

end Dialect

theorem Instant.floorSecond_le (a : Instant) : a.floorSecond.moment ≤ a.moment := by
  unfold floorSecond
  split
  · exact Prod.Lex.toLex_le_toLex.2 (.inr ⟨rfl, Nat.zero_le _⟩)
  · next hleap => exact Prod.Lex.toLex_le_toLex.2 (.inr ⟨rfl, Nat.le_of_not_lt hleap⟩)

theorem Instant.le_ceilSecond? {a b : Instant} (h : a.ceilSecond? = some b) :
    a.moment ≤ b.moment := by
  unfold ceilSecond? at h
  split at h
  · rw [← Option.some.inj h]
  · unfold ofParts? at h
    split at h
    · rw [← Option.some.inj h]
      exact Prod.Lex.toLex_le_toLex.2 (.inl (Int.lt_succ a.second))
    · cases h

/-- To whole seconds a window is only widened. -/
theorem TimeWindow.bounds?_true_covers {w : TimeWindow} {lower upper : Instant}
    (h : w.bounds? true = some (lower, upper)) :
    lower.moment ≤ w.lower.moment ∧ w.upper.moment ≤ upper.moment := by
  simp only [bounds?, if_true, Option.map_eq_some_iff, Prod.mk.injEq] at h
  obtain ⟨b, hb, rfl, rfl⟩ := h
  exact ⟨w.lower.floorSecond_le, Instant.le_ceilSecond? hb⟩

/-- Every validity that overlaps one window overlaps another exactly if it lies within that one. -/
theorem forall_overlaps_iff {a b : Instant} {lower upper : Moment} (h : a.moment ≤ b.moment) :
    (∀ first last : Instant, first.moment ≤ last.moment →
      Overlaps first.moment last.moment a.moment b.moment →
      Overlaps first.moment last.moment lower upper) ↔ lower ≤ a.moment ∧ b.moment ≤ upper := by
  constructor
  · intro hall
    have hfirst := hall a a le_rfl ⟨h, le_rfl⟩
    have hlast := hall b b le_rfl ⟨le_rfl, h⟩
    exact ⟨hfirst.2, hlast.1⟩
  · rintro ⟨hlower, hupper⟩ first last - ⟨hfirst, hlast⟩
    exact ⟨hfirst.trans hupper, hlower.trans hlast⟩

/-- A window between two instants is sent in every language, and what is read from it is determined.
It reaches from the lower instant to the upper one, so that no feature is lost whose validity
overlaps the window, exactly if the upper instant falls on a millisecond; where milliseconds are
counted, the lower one must not fall into a leap second, and the upper one may. -/
theorem sentWindow_covers_iff (d : Dialect) (o : CompileOptions) (w : TimeWindow) :
    ∃ part lower upper, (d.grammar o).timePart? w false = some part ∧
      (∀ a b, d.Sends w part a b ↔ a = lower ∧ b = upper) ∧
      (lower ≤ w.lower.moment ↔ d ≠ .whereClause ∨ w.lower.nano < 1000000000) ∧
      (w.upper.moment ≤ upper ↔
        w.upper.nano % 1000000 = 0 ∨ d = .whereClause ∧ 1000000000 ≤ w.upper.nano) ∧
      ((∀ first last : Instant, first.moment ≤ last.moment →
        Overlaps first.moment last.moment w.lower.moment w.upper.moment →
        Overlaps first.moment last.moment lower upper) ↔
          lower ≤ w.lower.moment ∧ w.upper.moment ≤ upper) := by
  have hordered : w.lower.moment ≤ w.upper.moment := Instant.notAfter_iff.1 w.ordered
  refine ⟨(d.grammar o).time w false w.lower w.upper, d.sentMoment w.lower, d.sentMoment w.upper,
    rfl, ?_, ?_, ?_, ?_⟩
  · intro a b
    exact Dialect.sends_iff o
  · exact Dialect.sentMoment_le_iff
  · exact Dialect.le_sentMoment_iff
  · exact forall_overlaps_iff hordered

/-- Neither bound is safe: what is valid in the last part of a millisecond at the window's end is
lost in every language, and where milliseconds are counted a window from within a leap second
begins late. -/
theorem sentWindow_loses_end_of_millisecond :
    let w : TimeWindow := ⟨"t", none, ⟨0, 0, by decide, by decide, by decide, by decide⟩,
      ⟨0, 500000, by decide, by decide, by decide, by decide⟩, by decide⟩
    let late : Instant := ⟨0, 200000, by decide, by decide, by decide, by decide⟩
    let leap : TimeWindow :=
      ⟨"t", none, ⟨59, 1500000000, by decide, by decide, by decide, by decide⟩,
        ⟨61, 0, by decide, by decide, by decide, by decide⟩, by decide⟩
    (∀ d : Dialect, ∃ part, (d.grammar {}).timePart? w false = some part ∧
      ∀ lower upper, d.Sends w part lower upper → ¬w.upper.moment ≤ upper ∧
        Overlaps late.moment late.moment w.lower.moment w.upper.moment ∧
        ¬Overlaps late.moment late.moment lower upper) ∧
      ∃ part, (Dialect.whereClause.grammar {}).timePart? leap false = some part ∧
        ∀ lower upper, Dialect.whereClause.Sends leap part lower upper →
          ¬lower ≤ leap.lower.moment := by
  intro w late leap
  constructor
  · intro d
    refine ⟨(d.grammar {}).time w false w.lower w.upper, rfl, ?_⟩
    intro lower upper h
    obtain ⟨-, rfl⟩ := (Dialect.sends_iff {}).1 h
    have hupper : d.sentMoment w.upper = toLex (0, 0) := by cases d <;> decide
    rw [hupper]
    exact ⟨by decide, ⟨by decide, by decide⟩, fun hlost => absurd hlost.1 (by decide)⟩
  · refine ⟨(Dialect.whereClause.grammar {}).time leap false leap.lower leap.upper, rfl, ?_⟩
    intro lower upper h
    obtain ⟨rfl, -⟩ := (Dialect.sends_iff {}).1 h
    decide

end MapQuery
