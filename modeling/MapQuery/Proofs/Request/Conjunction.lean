import MapQuery.Proofs.Predicate.Finished
import MapQuery.Proofs.Request.Reinstallation
import MapQuery.Proofs.Request.Restriction

/-!
# What a request restricts

A request asks for what its data source asked for before, for what the compiled query selects, and
for the time window, all at once. The filter parameter says so as long as its finished texts are
divided where their quotes allow it; they are scanned by their parentheses alone.
-/

set_option autoImplicit false

namespace MapQuery

open Quotation (literals)

/-- The bounds of a time window as predicates. -/
def TimeWindow.boundTexts (w : TimeWindow) (wholeSeconds : Bool) (lower upper : Instant) :
    Text × Text :=
  (w.startColumn ++ " <= " ++ Timestamp.write (!wholeSeconds) upper,
    w.endColumn ++ " >= " ++ Timestamp.write (!wholeSeconds) lower)

theorem isFragment_asIs {v : Text → Bool} {t : Text} {o : Option Bool}
    (ho : Quotation.shieldedOpen ∉ t) (hc : Quotation.shieldedClose ∉ t)
    (h : IsFragment .restored v t o) : IsFragment .asIs v t o := by
  cases h with
  | empty => exact .empty
  | group hgroup =>
    obtain ⟨k, hk, htext, hholds⟩ := hgroup
    rw [Rendering.restored.text_eq_self ho hc] at htext
    exact .group ⟨k, hk, by rw [Rendering.text_asIs, htext], hholds⟩

/-- The predicate of a time window is the conjunction of its bounds. -/
theorem timePredicate_spec {w : TimeWindow} (hstart : w.startColumn.Plain)
    (hend : w.endColumn.Plain) (wholeSeconds : Bool) (lower upper : Instant) :
    let t := CqlText.time w wholeSeconds lower upper
    let bounds := w.boundTexts wholeSeconds lower upper
    t.IsBalanced ∧ t.IsHeeded ∧ literals t = [] ∧
      ∀ v, valueHolds? v t = some (v (Text.trim bounds.1) && v (Text.trim bounds.2)) := by
  intro t bounds
  have hbounds : bounds.1.Plain ∧ bounds.2.Plain := by
    simp only [bounds, TimeWindow.boundTexts, Text.plain_append, hstart, hend,
      Timestamp.plain_write, and_true, true_and]
    decide
  have hmarks : Text.Marks " <= " ∧ Text.Marks " >= " := by decide
  have hleaves : IsLeaf (Text.paren bounds.1) ∧ IsLeaf (Text.paren bounds.2) :=
    ⟨isLeaf_of_marks (hstart.marks_append hmarks.1) (.of_plain (Timestamp.plain_write _ _)),
      isLeaf_of_marks (hend.marks_append hmarks.2) (.of_plain (Timestamp.plain_write _ _))⟩
  have hchars : ∀ c, isPlain c = false → c ≠ '(' → c ≠ ')' → c ∉ t := by
    intro c hplain hopen hclose
    have hand : c ∉ (" AND " : Text) := Text.Plain.not_mem (by decide) hplain
    have hlower : c ∉ bounds.1 := hbounds.1.not_mem hplain
    have hupper : c ∉ bounds.2 := hbounds.2.not_mem hplain
    change c ∉ Text.paren (Text.paren bounds.1 ++ " AND " ++ Text.paren bounds.2)
    simp only [Text.paren, List.mem_cons, List.mem_append, List.not_mem_nil, or_false, not_or]
    exact ⟨hopen, ⟨⟨⟨hopen, hlower, hclose⟩, by simpa using hand⟩, hopen, hupper, hclose⟩, hclose⟩
  have ho : Quotation.shieldedOpen ∉ t := hchars _ (by decide) (by decide) (by decide)
  have hc : Quotation.shieldedClose ∉ t := hchars _ (by decide) (by decide) (by decide)
  have hquote : '\'' ∉ t := hchars _ (by decide) (by decide) (by decide)
  have hfragment : ∀ v, IsFragment .asIs v t (Connective.and.holds?
      [some (v (leafText (Text.paren bounds.1))), some (v (leafText (Text.paren bounds.2)))]) := by
    intro v
    have hgroups := (Clause.groups_of_clauses (v := v)
      (.cons (.leaf hleaves.1) (.cons (.leaf hleaves.2) .nil))).1
    have hjoined : IsFragment .restored v (Junction.joinMembers .and _) _ :=
      isFragment_joinMembers hgroups Iff.rfl rfl
    exact isFragment_asIs ho hc hjoined
  have hleaf : ∀ {b : Text}, b.Plain → leafText (Text.paren b) = Text.trim b := by
    intro b hb
    have hshown : Quotation.restore b = b := hb.shown .restored
    simp [leafText, Split.inside, Text.paren, hshown]
  have hbalanced := (valueHolds?_of_isFragment (hfragment fun _ => true)).1
  have hliterals : literals t = [] := Quotation.literals_of_unquoted hquote
  refine ⟨hbalanced, isHeeded_of_literals hbalanced (by simp [hliterals]), hliterals, fun v => ?_⟩
  rw [(valueHolds?_of_isFragment (hfragment v)).2, Connective.getD_holds?_and, hleaf hbounds.1,
    hleaf hbounds.2]
  simp

/-- The filter parameter among request parameters; it is empty where there is none. -/
def filterParameter (g : Grammar) (p : Parameters) : Text := (p.get? g.parameter).getD []

namespace Modifier

theorem filterParameter_mergeFilter (g : Grammar) (alone addition : Text) (p : Parameters) :
    filterParameter g (mergeFilter g alone addition p) =
      if (filterParameter g p).isEmpty then alone
      else g.conjoin (filterParameter g p) addition := by
  simp [filterParameter, mergeFilter]

theorem filterParameter_foldl_set {g : Grammar} {params : List (Text × Text)}
    (h : ∀ q ∈ params, q.1 ≠ g.parameter) (p : Parameters) :
    filterParameter g (params.foldl (fun p q => p.set q.1 q.2) p) = filterParameter g p := by
  induction params generalizing p with
  | nil => rfl
  | cons q rest ih =>
    rw [List.foldl_cons, ih fun q' hq' => h q' (List.mem_cons_of_mem _ hq'), filterParameter,
      Parameters.get?_set_of_ne p (h q (by simp)).symm, filterParameter]

theorem filterParameter_ofQuery {g : Grammar} {params : List (Text × Text)}
    (h : ∀ q ∈ params, q.1 ≠ g.parameter) (filter : Option Text) (p : Parameters) :
    filterParameter g ((ofQuery g params filter).apply p) =
      match filter with
      | none => filterParameter g p
      | some text =>
        if (filterParameter g p).isEmpty then text else g.conjoin (filterParameter g p) text := by
  cases filter with
  | none => exact filterParameter_foldl_set h p
  | some text =>
    have hfold := filterParameter_foldl_set h p
    simp only [ofQuery, filterParameter_mergeFilter, hfold]

end Modifier

/-- What a time window makes of request parameters, if there is one. -/
def TimePart.applied (g : Grammar) (time : Option TimePart) (p : Parameters) : Parameters :=
  match time with
  | none => p
  | some part => (Modifier.ofTime g part).apply p

theorem Pipeline.apply_install (g : Grammar) (params : List (Text × Text)) (filter : Option Text)
    (time : Option TimePart) (base : Parameters) :
    (empty.install g params filter time).apply base =
      TimePart.applied g time ((Modifier.ofQuery g params filter).apply base) := by
  cases time with
  | none =>
    rw [apply, modifiers_install_none g params filter (.empty rfl)]
    rfl
  | some part =>
    rw [apply, modifiers_install_some g params filter part (.empty rfl)]
    rfl

/-- The finished texts that are scanned for groups while a request is put together. A text is
scanned only where it is merged with another. -/
def scannedTexts (g : Grammar) (q : CompiledQuery) (time : Option TimePart) (base : Parameters) :
    List Text :=
  (match q.filter with
    | some text =>
      if (filterParameter g base).isEmpty then [] else [filterParameter g base, text]
    | none => []) ++
  match time with
    | some (.predicate _) =>
      [filterParameter g ((Modifier.ofQuery g q.params q.filter).apply base)]
    | _ => []

theorem isHeeded_of_filter {g : Grammar} {q : CompiledQuery} {time : Option TimePart}
    {base : Parameters} (hscans : ∀ t ∈ scannedTexts g q time base, t.IsHeeded) :
    ∀ t ∈ q.filter, filterParameter g base ≠ [] →
      (filterParameter g base).IsHeeded ∧ t.IsHeeded := by
  intro t ht hne
  have hboth : ∀ x ∈ [filterParameter g base, t], x.IsHeeded := by
    intro x hx
    apply hscans x
    apply List.mem_append_left
    simpa [Option.mem_def.1 ht, hne] using hx
  exact ⟨hboth _ (by simp), hboth t (by simp)⟩

theorem isHeeded_of_predicate {g : Grammar} {q : CompiledQuery} {time : Option TimePart}
    {base : Parameters} (hscans : ∀ t ∈ scannedTexts g q time base, t.IsHeeded) :
    (∃ t, time = some (.predicate t)) →
      (filterParameter g ((Modifier.ofQuery g q.params q.filter).apply base)).IsHeeded := by
  rintro ⟨t, rfl⟩
  apply hscans
  apply List.mem_append_right
  exact List.mem_singleton_self _

namespace Dialect

variable (d : Dialect)

/-- What the filter parameter says before a query is installed. The clause that everything satisfies
says nothing. -/
def foundText (found : Text) : Text :=
  if d = .whereClause ∧ found = WhereClause.matchAll then [] else found

theorem literals_foundText (found : Text) : literals (d.foundText found) = literals found := by
  unfold foundText
  split
  · next h => rw [h.2]; decide
  · rfl

/-- The truth of a time window; only one of the text languages has predicates for it. -/
def windowHolds (v : Text → Bool) (wholeSeconds : Bool) (window : Option TimeWindow) : Bool :=
  match d, window.bind fun w => (w.bounds? wholeSeconds).map (w, ·) with
  | .cqlText, some (w, lower, upper) =>
    let bounds := w.boundTexts wholeSeconds lower upper
    v (Text.trim bounds.1) && v (Text.trim bounds.2)
  | _, _ => true

end Dialect

theorem params_compileQuery_ne {d : Dialect} (hd : d ≠ .filterMarkup) (o : CompileOptions)
    (r : Resolution) : ∀ q ∈ (compileQuery d o r).params, q.1 ≠ (d.grammar o).parameter := by
  cases d with
  | filterMarkup => exact absurd rfl hd
  | cqlText =>
    intro q hq
    cases hq
  | whereClause =>
    intro q hq
    change q ∈ WhereClause.areaParams r at hq
    unfold WhereClause.areaParams at hq
    split at hq
    · cases hq
    · have hkeys : ∀ k ∈ (["geometry", "geometryType", "spatialRel", "inSR"] : List Text),
          k ≠ "where" := by decide
      exact hkeys q.1 (List.mem_map_of_mem hq)

/-- The filter of a compiled query is never blank, and its parentheses and quotes match. -/
theorem isBalanced_compileQuery {d : Dialect} (hd : d ≠ .filterMarkup) {o : CompileOptions}
    {r : Resolution} (hcolumns : ∀ f ∈ r.filters, ∀ c ∈ f.filter.columns, c.Plain)
    (hgeometry : o.geometryColumn.Plain) (hid : o.idColumn.Plain) :
    ∀ t ∈ (compileQuery d o r).filter, t.IsBalanced ∧ Text.blank t = false := by
  obtain ⟨t, truth, hclause, -, hfilter⟩ :=
    exists_clause_of_compileQuery hd hcolumns hgeometry hid fun _ => true
  rw [hfilter]
  have hgroup : ∀ {s : Text} {b : Bool}, IsGroup .restored (fun _ => true) (Text.paren s) b →
      (Quotation.restore (Text.paren s)).IsBalanced ∧
        Text.blank (Quotation.restore (Text.paren s)) = false := by
    rintro s b ⟨k, hk, htext, -⟩
    rw [Rendering.text_restored] at htext
    have hread : Level.ofText? k.group.text = some (Level.empty.before k.group) :=
      Level.ofText?_paren hk
    rw [htext]
    exact ⟨by simp [Text.IsBalanced, hread], rfl⟩
  intro x hx
  cases d with
  | filterMarkup => exact absurd rfl hd
  | cqlText =>
    cases hclause with
    | empty => cases hx
    | group _ h =>
      obtain rfl := Option.some.inj hx
      exact hgroup h
  | whereClause =>
    obtain rfl := Option.some.inj hx
    cases hclause with
    | empty => decide
    | group _ h => exact hgroup h

theorem isConjunction_conjoin_whereClause (o : CompileOptions) {found text : Text}
    (hfound : found.IsBalanced) (htext : text.IsBalanced) (hblank : Text.blank text = false)
    (hscans : found ≠ [] → found.IsHeeded ∧ text.IsHeeded) :
    IsConjunction (if found.isEmpty then text else (WhereClause.grammar o).conjoin found text)
      (Dialect.whereClause.foundText found) text := by
  cases hempty : found.isEmpty with
  | true =>
    obtain rfl := List.isEmpty_iff.1 hempty
    exact isConjunction_of_blank rfl htext
  | false =>
    obtain ⟨hfirst, hsecond⟩ := hscans (by simpa using hempty)
    have hsaid : Text.IsBalanced (Dialect.whereClause.foundText found) ∧
        Text.IsHeeded (Dialect.whereClause.foundText found) := by
      unfold Dialect.foundText
      split
      · exact ⟨rfl, isHeeded_nil⟩
      · exact ⟨hfound, hfirst⟩
    -- Something is left of the merge, so finishing it adds no clause that everything satisfies.
    have hne := merge_ne_nil hsaid.1 htext hsaid.2 hsecond hblank
    have hconjoin : (WhereClause.grammar o).conjoin found text =
        Junction.merge .and [Dialect.whereClause.foundText found, text] := by
      have hsame : Dialect.whereClause.foundText found =
          if found = WhereClause.matchAll then [] else found := by simp [Dialect.foundText]
      rw [hsame] at hne ⊢
      exact if_neg (mt List.isEmpty_iff.1 hne)
    rw [hconjoin]
    exact isConjunction_merge hsaid.1 htext hsaid.2 hsecond

/-- With the filter of a compiled query, the filter parameter is the conjunction of what it held and
of that filter. -/
theorem isConjunction_ofQuery {d : Dialect} (hd : d ≠ .filterMarkup) {o : CompileOptions}
    {r : Resolution} (hcolumns : ∀ f ∈ r.filters, ∀ c ∈ f.filter.columns, c.Plain)
    (hgeometry : o.geometryColumn.Plain) (hid : o.idColumn.Plain) {base : Parameters}
    (hbase : (filterParameter (d.grammar o) base).IsBalanced)
    (hscans : ∀ t ∈ (compileQuery d o r).filter, filterParameter (d.grammar o) base ≠ [] →
      (filterParameter (d.grammar o) base).IsHeeded ∧ t.IsHeeded) :
    let q := compileQuery d o r
    IsConjunction
      (filterParameter (d.grammar o)
        ((Modifier.ofQuery (d.grammar o) q.params q.filter).apply base))
      (d.foundText (filterParameter (d.grammar o) base)) (q.filter.getD []) := by
  intro q
  have hfilter := isBalanced_compileQuery hd hcolumns hgeometry hid (o := o) (r := r)
  rw [Modifier.filterParameter_ofQuery (params_compileQuery_ne hd o r) q.filter base]
  generalize filterParameter (d.grammar o) base = found at hbase hscans ⊢
  cases d with
  | filterMarkup => exact absurd rfl hd
  | cqlText =>
    have hfound : Dialect.cqlText.foundText found = found := if_neg (by simp)
    rw [hfound]
    cases hq : q.filter with
    | none => exact isConjunction_self hbase
    | some text => exact isConjunction_mergeFilter hbase (hfilter text hq).1 (hscans text hq)
  | whereClause =>
    obtain ⟨text, hq⟩ : ∃ text, q.filter = some text := ⟨_, rfl⟩
    obtain ⟨htext, hblank⟩ := hfilter text hq
    rw [hq]
    exact isConjunction_conjoin_whereClause o hbase htext hblank (hscans text hq)

/-- Scans heed quotes where no literal of the request holds a parenthesis. -/
theorem isHeeded_of_mem_scannedTexts {d : Dialect} (hd : d ≠ .filterMarkup) {o : CompileOptions}
    {r : Resolution} (hcolumns : ∀ f ∈ r.filters, ∀ c ∈ f.filter.columns, c.Plain)
    (hgeometry : o.geometryColumn.Plain) (hid : o.idColumn.Plain) {base : Parameters}
    (hbase : (filterParameter (d.grammar o) base).IsBalanced)
    (hfound : ∀ s ∈ literals (filterParameter (d.grammar o) base), s.Unbracketed)
    (hfilter : ∀ s ∈ literals ((compileQuery d o r).filter.getD []), s.Unbracketed)
    (time : Option TimePart) :
    ∀ t ∈ scannedTexts (d.grammar o) (compileQuery d o r) time base, t.IsHeeded := by
  have hfirst := isHeeded_of_literals hbase hfound
  have hsecond : ∀ t ∈ (compileQuery d o r).filter, t.IsHeeded := by
    intro t ht
    rw [Option.mem_def.1 ht] at hfilter
    exact isHeeded_of_literals (isBalanced_compileQuery hd hcolumns hgeometry hid t ht).1 hfilter
  have hquery := isConjunction_ofQuery hd hcolumns hgeometry hid hbase fun t ht _ =>
    ⟨hfirst, hsecond t ht⟩
  have hboth : ∀ s ∈ literals (filterParameter (d.grammar o) ((Modifier.ofQuery (d.grammar o)
      (compileQuery d o r).params (compileQuery d o r).filter).apply base)), s.Unbracketed := by
    intro s hs
    rw [hquery.literals, Dialect.literals_foundText] at hs
    exact (List.mem_append.1 hs).elim (hfound s) (hfilter s)
  intro t ht
  rcases List.mem_append.1 ht with ht | ht
  · split at ht
    · next text htext =>
      split at ht
      · cases ht
      · rcases List.mem_pair.1 ht with rfl | rfl
        · exact hfirst
        · exact hsecond _ htext
    · cases ht
  · split at ht
    · obtain rfl := List.mem_singleton.1 ht
      exact isHeeded_of_literals hquery.balanced hboth
    · cases ht

/-- What the time window adds to the filter parameter says what the window says. -/
theorem exists_isConjunction_window {d : Dialect} (hd : d ≠ .filterMarkup) {o : CompileOptions}
    {window : Option TimeWindow}
    (hwindow : ∀ w ∈ window, w.startColumn.Plain ∧ w.endColumn.Plain) {wholeSeconds : Bool}
    {time : Option TimePart}
    (htime : (window.mapM fun w => (d.grammar o).timePart? w wholeSeconds) = some time)
    {p : Parameters} (hp : (filterParameter (d.grammar o) p).IsBalanced)
    (hscans : (∃ t, time = some (.predicate t)) → (filterParameter (d.grammar o) p).IsHeeded) :
    ∃ extra, literals extra = [] ∧
      (∀ v, valueHolds? v extra = some (d.windowHolds v wholeSeconds window)) ∧
      IsConjunction (filterParameter (d.grammar o) (TimePart.applied (d.grammar o) time p))
        (filterParameter (d.grammar o) p) extra := by
  cases window with
  | none =>
    obtain rfl : none = time := Option.some.inj htime
    exact ⟨[], rfl, fun v => by cases d <;> rfl, isConjunction_self hp⟩
  | some w =>
    obtain ⟨hstart, hend⟩ := hwindow w rfl
    rw [Option.mapM_some] at htime
    obtain ⟨part, hpart, rfl⟩ := Option.map_eq_some_iff.1 htime
    obtain ⟨⟨lower, upper⟩, hbounds, rfl⟩ := Option.map_eq_some_iff.1 hpart
    cases d with
    | filterMarkup => exact absurd rfl hd
    | cqlText =>
      obtain ⟨hbalanced, hheeded, hliterals, hholds⟩ :=
        timePredicate_spec hstart hend wholeSeconds lower upper
      refine ⟨_, hliterals, fun v => ?_, ?_⟩
      · rw [hholds v]
        simp [Dialect.windowHolds, hbounds]
      · have hvalue := Modifier.filterParameter_mergeFilter (CqlText.grammar o)
          (CqlText.time w wholeSeconds lower upper) (CqlText.time w wholeSeconds lower upper) p
        exact hvalue ▸ isConjunction_mergeFilter hp hbalanced fun _ => ⟨hscans ⟨_, rfl⟩, hheeded⟩
    | whereClause =>
      refine ⟨[], rfl, fun v => rfl, ?_⟩
      have hkey : ("where" : Text) ≠ "time" := by decide
      have hsame : ∀ value, filterParameter (Dialect.whereClause.grammar o)
          (p.set "time" value) = filterParameter (Dialect.whereClause.grammar o) p := by
        intro value
        exact congrArg (·.getD []) (Parameters.get?_set_of_ne p hkey value)
      exact (hsame _).symm ▸ isConjunction_self hp

/-- The filter parameter of a request reads as the conjunction of what it held before, of the
compiled filter and of the bounds of the time window, and has the literals of the first two, as long
as the finished texts that are scanned divide, if at all, where their quotes allow it. -/
theorem request_holds {d : Dialect} (hd : d ≠ .filterMarkup) {o : CompileOptions}
    {r : Resolution} (hcolumns : ∀ f ∈ r.filters, ∀ c ∈ f.filter.columns, c.Plain)
    (hgeometry : o.geometryColumn.Plain) (hid : o.idColumn.Plain) {window : Option TimeWindow}
    (hwindow : ∀ w ∈ window, w.startColumn.Plain ∧ w.endColumn.Plain) {wholeSeconds : Bool}
    {time : Option TimePart}
    (htime : (window.mapM fun w => (d.grammar o).timePart? w wholeSeconds) = some time)
    {base : Parameters} (hbase : (filterParameter (d.grammar o) base).IsBalanced)
    (hscans : ∀ t ∈ scannedTexts (d.grammar o) (compileQuery d o r) time base, t.IsHeeded) :
    let g := d.grammar o
    let q := compileQuery d o r
    let found := filterParameter g base
    let value := filterParameter g ((Pipeline.empty.install g q.params q.filter time).apply base)
    literals value = literals found ++ literals (q.filter.getD []) ∧
      ∀ v, ∃ b f, valueHolds? v (d.foundText found) = some b ∧
        valueHolds? v (q.filter.getD []) = some f ∧
        valueHolds? v value = some (b && f && d.windowHolds v wholeSeconds window) := by
  intro g q found value
  have hquery := isConjunction_ofQuery hd hcolumns hgeometry hid hbase
    (isHeeded_of_filter hscans)
  obtain ⟨extra, hliterals, hextra, hvalue⟩ :=
    exists_isConjunction_window hd hwindow htime hquery.balanced (isHeeded_of_predicate hscans)
  rw [← Pipeline.apply_install] at hvalue
  constructor
  · rw [hvalue.literals, hquery.literals, hliterals, Dialect.literals_foundText, List.append_nil]
  · intro v
    obtain ⟨b, f, hb, hf, hboth⟩ := hquery.holds v
    obtain ⟨b', e, hb', he, hall⟩ := hvalue.holds v
    obtain rfl := Option.some.inj (hboth.symm.trans hb')
    obtain rfl := Option.some.inj ((hextra v).symm.trans he)
    exact ⟨b, f, hb, hf, hall⟩

/-- A literal may hold parentheses that match. -/
theorem request_holds_of_matched_parentheses :
    let equals (column literal : Text) : Node :=
      .comparing (.relation .equals) column (.text literal)
    let r : Resolution := ⟨"L", [], [], [⟨"F", ⟨[equals "NAME" "it's (old)"]⟩, .and⟩], none, []⟩
    let w : TimeWindow := ⟨"t", none, ⟨0, 0, by decide, by decide, by decide, by decide⟩,
      ⟨60, 0, by decide, by decide, by decide, by decide⟩, by decide⟩
    let time : TimePart :=
      .predicate "((t <= 1970-01-01T00:01:00Z) AND (t >= 1970-01-01T00:00:00Z))"
    let g := Dialect.cqlText.grammar {}
    let q := compileQuery .cqlText {} r
    let base := Parameters.empty.set "CQL_FILTER" "(A = 'f(x)') OR (B = 1)"
    let value :=
      filterParameter g ((Pipeline.empty.install g q.params q.filter (some time)).apply base)
    let v (t : Text) : Bool := t != "A = 'f(x)'"
    g.timePart? w true = some time ∧
      literals value = (["f(x)", "it''s (old)"] : List Text) ∧ valueHolds? v value = some true := by
  intro equals r w time g q base value v
  have htime : g.timePart? w true = some time := by decide
  have hwindow : ((some w).mapM fun w => g.timePart? w true) = some (some time) :=
    congrArg (Option.map some) htime
  have hbase : (filterParameter g base).IsBalanced := by decide
  have hscans : ∀ t ∈ scannedTexts g q (some time) base, t.IsHeeded := by decide
  obtain ⟨hliterals, hholds⟩ := request_holds (d := .cqlText) (o := {}) (r := r)
    (by decide) (by decide) (by decide) (by decide) (by decide) hwindow hbase hscans
  obtain ⟨b, f, hb, hf, hvalue⟩ := hholds v
  have hfound :
      valueHolds? v (Dialect.cqlText.foundText (filterParameter g base)) = some true := by decide
  have hfilter : valueHolds? v (q.filter.getD []) = some true := by decide
  have hbounds : Dialect.cqlText.windowHolds v true (some w) = true := by decide +kernel
  obtain rfl := Option.some.inj (hfound.symm.trans hb)
  obtain rfl := Option.some.inj (hfilter.symm.trans hf)
  refine ⟨htime, ?_, ?_⟩
  · rw [hliterals]
    decide
  · rw [hvalue, hbounds]
    rfl

/-- A literal between whose parentheses a keyword stands is altered, and the disjunction that it
belongs to is torn open: the time window no longer restricts all of the request. -/
theorem request_torn_open :
    let equals (column literal : Text) : Node :=
      .comparing (.relation .equals) column (.text literal)
    let nodes : List Node := [.group .or [equals "A" "(", equals "B" ")) and (z"]]
    let r : Resolution := ⟨"L", [], [], [⟨"F", ⟨nodes⟩, .and⟩], none, []⟩
    let w : TimeWindow := ⟨"t", none, ⟨0, 0, by decide, by decide, by decide, by decide⟩,
      ⟨60, 0, by decide, by decide, by decide, by decide⟩, by decide⟩
    let time : TimePart :=
      .predicate "((t <= 1970-01-01T00:01:00Z) AND (t >= 1970-01-01T00:00:00Z))"
    let g := Dialect.cqlText.grammar {}
    let q := compileQuery .cqlText {} r
    let value :=
      filterParameter g ((Pipeline.empty.install g q.params q.filter (some time)).apply .empty)
    let v (t : Text) : Bool := t == "A = '('"
    g.timePart? w true = some time ∧
      literals (q.filter.getD []) = (["(", ")) and (z"] : List Text) ∧
      literals value = (["(", ")) AND (z"] : List Text) ∧
      Dialect.cqlText.windowHolds v true (some w) = false ∧ valueHolds? v value = some true := by
  intro equals nodes r w time g q value v
  have hfilter : q.filter = some "((A = '(') OR (B = ')) and (z'))" := by decide
  have hvalue : value = "((A = '(') OR (B = ')) AND (z') AND (t <= 1970-01-01T00:01:00Z) AND " ++
      "(t >= 1970-01-01T00:00:00Z))" := by decide
  rw [hvalue, hfilter]
  exact ⟨by decide, by decide, by decide, by decide +kernel, by decide +kernel⟩

end MapQuery
