import MapQuery.Proofs.Request.Selections

/-!
# Isolation of filters

A filter that says nothing by itself is told of and otherwise passed over: without it the compiled
query is the same. The one filter that another one can stand in the way of is a selection of feature
ids where it has to be the whole filter.
-/

set_option autoImplicit false

namespace MapQuery

/-- The filter that an advisory is about, if it is about one. -/
def Advisory.filterId? : Advisory → Option Text
  | .malformedFilter id _ | .rejectedColumn id _ _ | .emptyFilter id | .mixedIds id => some id
  | .unsupportedExclusion _ _ => none

namespace ChosenFilter

variable {g : Grammar} {columns : Option Columns} {r : Resolution} {f : ChosenFilter}

/-- Whether a filter says nothing by itself: it uses a column that it may not use, or no node of it
says anything. -/
def IsSilent (g : Grammar) (columns : Option Columns) (f : ChosenFilter) : Prop :=
  (columns.bind fun cs => cs.firstFault? f.filter).isSome = true ∨
    ∀ n ∈ f.filter.nodes, g.writer.node n = []

theorem filterId?_of_refusal? {a : Advisory} (h : f.refusal? g columns r = some a) :
    a.filterId? = some f.id := by
  unfold refusal? at h
  split at h
  · obtain rfl := Option.some.inj h
    rfl
  · split at h
    · obtain rfl := Option.some.inj h
      rfl
    · simp at h

theorem filterId?_of_mem_contribution :
    ∀ a ∈ (f.contribution g columns r).2, a.filterId? = some f.id := by
  intro a ha
  unfold contribution at ha
  split at ha
  · next advisory hrefusal =>
    rw [List.mem_singleton] at ha
    rw [ha]
    exact filterId?_of_refusal? hrefusal
  · rcases List.mem_append.1 ha with ha | ha
    · rw [Option.mem_toList] at ha
      obtain ⟨why, -, rfl⟩ := Option.map_eq_some_iff.1 ha
      rfl
    · split at ha
      · rw [List.mem_singleton] at ha
        rw [ha]
        rfl
      · cases ha

/-- What a filter contributes depends on the rest of the query only by whether it has to stand
alone and does. -/
theorem contribution_congr {r' : Resolution}
    (h : g.idsStandAlone = true →
      r.isStandaloneSelection f.filter = r'.isStandaloneSelection f.filter) :
    f.contribution g columns r = f.contribution g columns r' := by
  have hrefusal : f.refusal? g columns r = f.refusal? g columns r' := by
    unfold refusal?
    cases halone : g.idsStandAlone with
    | false => rfl
    | true => rw [h halone]
  unfold contribution
  rw [hrefusal]

end ChosenFilter

theorem Writer.joinParts_eq_nil (w : Writer) (op : Connective) {parts : List Text}
    (h : ∀ t ∈ parts, t = []) : w.joinParts op parts = [] := by
  have hnone : parts.filter (!·.isEmpty) = [] := by
    rw [List.filter_eq_nil_iff]
    intro t ht
    simp [h t ht]
  simp [joinParts, hnone]

theorem Junction.merge_eq_nil (op : Connective) {texts : List Text} (h : ∀ t ∈ texts, t = []) :
    merge op texts = [] := by
  have hnone : texts.flatMap (members op) = [] := by
    rw [List.flatMap_eq_nil_iff]
    intro t ht
    rw [h t ht]
    rfl
  rw [merge, hnone]
  rfl

theorem Dialect.merge_eq_nil (d : Dialect) (o : CompileOptions) (op : Connective)
    {texts : List Text} (h : ∀ t ∈ texts, t = []) : (d.grammar o).merge op texts = [] := by
  cases d with
  | filterMarkup => exact FilterMarkup.writer.joinParts_eq_nil op h
  | cqlText | whereClause => exact Junction.merge_eq_nil op h

theorem ChosenFilter.IsSilent.contribution_eq_nil {d : Dialect} {o : CompileOptions}
    {columns : Option Columns} {f : ChosenFilter} (h : f.IsSilent (d.grammar o) columns)
    (r : Resolution) : (f.contribution (d.grammar o) columns r).1 = [] := by
  unfold contribution
  split
  · rfl
  · next hrefusal =>
    rcases h with hfault | hnodes
    · unfold refusal? at hrefusal
      obtain ⟨fault, hfault⟩ := Option.isSome_iff_exists.1 hfault
      simp [hfault] at hrefusal
    · apply Dialect.merge_eq_nil
      intro t ht
      rw [Writer.nodes_eq_map] at ht
      obtain ⟨n, hn, rfl⟩ := List.mem_map.1 ht
      exact hnodes n hn

namespace Resolution

def withFilters (r : Resolution) (filters : List ChosenFilter) : Resolution :=
  { r with filters := filters }

@[simp] theorem filters_withFilters (r : Resolution) (filters : List ChosenFilter) :
    (r.withFilters filters).filters = filters := rfl

@[simp] theorem group_withFilters (r : Resolution) (filters : List ChosenFilter) :
    (r.withFilters filters).group = r.group := rfl

@[simp] theorem advisories_withFilters (r : Resolution) (filters : List ChosenFilter) :
    (r.withFilters filters).advisories = r.advisories := rfl

/-- Whether a selection of feature ids is all that the layer selects. -/
def IsLoneSelection (r : Resolution) : Prop :=
  ∃ f, r.filters = [f] ∧ r.isStandaloneSelection f.filter = true

variable {r : Resolution} {before after : List ChosenFilter} {f : ChosenFilter}

/-- A filter less leaves every other one alone as it was, unless only a selection is left. -/
theorem isStandaloneSelection_withFilters (hfilters : r.filters = before ++ f :: after)
    (hlone : ¬ (r.withFilters (before ++ after)).IsLoneSelection) {h : ChosenFilter}
    (hh : h ∈ before ++ after) :
    r.isStandaloneSelection h.filter =
      (r.withFilters (before ++ after)).isStandaloneSelection h.filter := by
  have hmore : r.filters.length = (before ++ after).length + 1 := by
    rw [hfilters]
    simp only [List.length_append, List.length_cons]
    omega
  have hsome : 0 < (before ++ after).length := List.length_pos_of_mem hh
  -- Beside `f` nothing stands alone, and without it nothing that is more than one filter does.
  rw [isStandaloneSelection_eq_false (by omega)]
  symm
  by_cases hone : (before ++ after).length = 1
  · obtain ⟨h', hh'⟩ := List.length_eq_one_iff.1 hone
    rw [hh', List.mem_singleton] at hh
    rw [hh]
    rw [Bool.eq_false_iff]
    intro hselection
    exact hlone ⟨h', hh', hselection⟩
  · exact isStandaloneSelection_eq_false hone h.filter

theorem spatial_withFilters (d : Dialect) (o : CompileOptions) (r : Resolution)
    (filters : List ChosenFilter) :
    (d.grammar o).spatial (r.withFilters filters) = (d.grammar o).spatial r := by
  cases d <;> rfl

end Resolution

section

variable {d : Dialect} {o : CompileOptions} {r : Resolution} {before after : List ChosenFilter}
  {f : ChosenFilter}

/-- Without a silent filter the others contribute what they did, unless only a selection of feature
ids is left that has to stand alone. -/
theorem contribution_withFilters (hfilters : r.filters = before ++ f :: after)
    (hlone : ¬ (d = .filterMarkup ∧ (r.withFilters (before ++ after)).IsLoneSelection))
    {h : ChosenFilter} (hh : h ∈ before ++ after) :
    h.contribution (d.grammar o) o.columns r =
      h.contribution (d.grammar o) o.columns (r.withFilters (before ++ after)) := by
  apply ChosenFilter.contribution_congr
  intro halone
  apply Resolution.isStandaloneSelection_withFilters hfilters _ hh
  intro hselection
  cases d with
  | filterMarkup => exact hlone ⟨rfl, hselection⟩
  | cqlText | whereClause => cases halone

/-- Without a silent filter the filter of the compiled query is the same, and of the advisories only
those are gone that name it. -/
theorem compileQuery_withFilters (hfilters : r.filters = before ++ f :: after)
    (hf : f.IsSilent (d.grammar o) o.columns)
    (hlone : ¬ (d = .filterMarkup ∧ (r.withFilters (before ++ after)).IsLoneSelection)) :
    (compileQuery d o r).filter = (compileQuery d o (r.withFilters (before ++ after))).filter ∧
      ∃ a own b, (compileQuery d o r).advisories = a ++ own ++ b ∧
        (compileQuery d o (r.withFilters (before ++ after))).advisories = a ++ b ∧
        ∀ x ∈ own, x.filterId? = some f.id := by
  have hbefore : before.map (fun h => h.contribution (d.grammar o) o.columns r) =
      before.map fun h =>
        h.contribution (d.grammar o) o.columns (r.withFilters (before ++ after)) :=
    List.map_congr_left fun h hh =>
      contribution_withFilters hfilters hlone (List.mem_append_left after hh)
  have hafter : after.map (fun h => h.contribution (d.grammar o) o.columns r) =
      after.map fun h =>
        h.contribution (d.grammar o) o.columns (r.withFilters (before ++ after)) :=
    List.map_congr_left fun h hh =>
      contribution_withFilters hfilters hlone (List.mem_append_right before hh)
  have hspatial := Resolution.spatial_withFilters d o r (before ++ after)
  constructor
  · simp only [compileQuery, hspatial, hfilters, Resolution.filters_withFilters,
      Resolution.group_withFilters, List.map_append, List.map_cons, List.filter_append,
      List.filter_cons, hf.contribution_eq_nil r, hbefore, hafter, List.isEmpty_nil, Bool.not_true,
      Bool.false_eq_true, if_false]
  · refine ⟨r.advisories ++ (before.map fun h =>
        h.contribution (d.grammar o) o.columns r).flatMap Prod.snd,
      (f.contribution (d.grammar o) o.columns r).2,
      (after.map fun h => h.contribution (d.grammar o) o.columns r).flatMap Prod.snd ++
        ((d.grammar o).spatial r).advisories, ?_, ?_, ChosenFilter.filterId?_of_mem_contribution⟩
    · simp only [compileQuery, hfilters, List.map_append, List.map_cons, List.flatMap_append,
        List.flatMap_cons, List.append_assoc]
    · simp only [compileQuery, hspatial, hbefore, hafter, Resolution.filters_withFilters,
        Resolution.advisories_withFilters, List.map_append, List.flatMap_append, List.append_assoc]

end

theorem compileQuery_eq_none {o : CompileOptions} {r : Resolution}
    (hincluded : r.included = []) (hexcluded : r.excluded = [])
    (h : ∀ f ∈ r.filters, (f.contribution (Dialect.filterMarkup.grammar o) o.columns r).1 = []) :
    (compileQuery .filterMarkup o r).filter = none := by
  have htexts : ∀ t ∈ ((r.filters.map fun f =>
      f.contribution (Dialect.filterMarkup.grammar o) o.columns r).map Prod.fst).filter
        (!·.isEmpty), t = [] := by
    intro t ht
    rw [List.map_map] at ht
    obtain ⟨f, hf, rfl⟩ := List.mem_map.1 (List.mem_filter.1 ht).1
    exact h f hf
  have hpredicates : ((Dialect.filterMarkup.grammar o).spatial r).predicates = [[]] := by
    change FilterMarkup.merge .or _ :: _ = _
    rw [hincluded, hexcluded]
    rfl
  have hpredicate := Dialect.merge_eq_nil .filterMarkup o r.group htexts
  simp only [compileQuery, hpredicates, hpredicate]
  rfl

/-- Beside a silent filter a selection of feature ids is refused in filter markup, although it would
stand alone without that filter. -/
theorem compileQuery_of_masked_selection {o : CompileOptions} {r : Resolution}
    {before after : List ChosenFilter} {f h : ChosenFilter}
    (hfilters : r.filters = before ++ f :: after)
    (hf : f.IsSilent (Dialect.filterMarkup.grammar o) o.columns) (hrest : before ++ after = [h])
    (hselection : (r.withFilters (before ++ after)).isStandaloneSelection h.filter = true) :
    (compileQuery .filterMarkup o r).filter = none ∧
      Advisory.mixedIds h.id ∈ (compileQuery .filterMarkup o r).advisories := by
  have hmem (x : ChosenFilter) : x ∈ r.filters ↔ x = f ∨ x = h := by
    rw [hfilters, ← List.mem_singleton (b := h), ← hrest, List.mem_append, List.mem_append,
      List.mem_cons]
    exact or_left_comm
  obtain ⟨-, hids, hincluded, hexcluded⟩ := Resolution.isStandaloneSelection_iff.1 hselection
  obtain ⟨list, hlist⟩ := Filter.isIdSelection_iff.1 hids
  have hmany : r.filters.length ≠ 1 := by
    have hlength := congrArg List.length hrest
    rw [hfilters]
    simp only [List.length_append, List.length_cons, List.length_nil] at hlength ⊢
    omega
  have hrefused : h.contribution (Dialect.filterMarkup.grammar o) o.columns r =
      ([], [.mixedIds h.id]) := by
    have hrefusal := ChosenFilter.refusal?_of_ids (Dialect.filterMarkup.grammar o) o.columns r hlist
    rw [Resolution.isStandaloneSelection_eq_false hmany] at hrefusal
    rw [ChosenFilter.contribution, hrefusal]
    rfl
  constructor
  · apply compileQuery_eq_none (r := r) hincluded hexcluded
    intro x hx
    rcases (hmem x).1 hx with rfl | rfl
    · exact hf.contribution_eq_nil r
    · rw [hrefused]
  · have hcontribution : h.contribution (Dialect.filterMarkup.grammar o) o.columns r ∈
        r.filters.map fun f => f.contribution (Dialect.filterMarkup.grammar o) o.columns r :=
      List.mem_map_of_mem ((hmem h).2 (Or.inr rfl))
    simp only [compileQuery, List.mem_append, List.mem_flatMap]
    left
    right
    refine ⟨_, hcontribution, ?_⟩
    rw [hrefused]
    exact List.mem_singleton_self _

/-- A filter that says nothing by itself changes nothing but what is told of itself, except that in
filter markup it keeps a selection of feature ids from standing alone. -/
theorem compileQuery_isolates (d : Dialect) (o : CompileOptions) {r : Resolution}
    {before after : List ChosenFilter} {f : ChosenFilter}
    (hfilters : r.filters = before ++ f :: after) (hf : f.IsSilent (d.grammar o) o.columns) :
    let q := compileQuery d o r
    let rest := r.withFilters (before ++ after)
    let q' := compileQuery d o rest
    q.params = q'.params ∧
      (¬ (d = .filterMarkup ∧ rest.IsLoneSelection) →
        q.filter = q'.filter ∧ ∃ a own b, q.advisories = a ++ own ++ b ∧
          q'.advisories = a ++ b ∧ ∀ x ∈ own, x.filterId? = some f.id) ∧
      ∀ h, d = .filterMarkup → before ++ after = [h] →
        rest.isStandaloneSelection h.filter = true →
        q.filter = none ∧ Advisory.mixedIds h.id ∈ q.advisories := by
  intro q rest q'
  refine ⟨?_, compileQuery_withFilters hfilters hf, ?_⟩
  · exact congrArg SpatialPart.params (Resolution.spatial_withFilters d o r (before ++ after)).symm
  · rintro h rfl hrest hselection
    exact compileQuery_of_masked_selection hfilters hf hrest hselection

/-- A node that could not be understood changes nothing for the filters around it. -/
theorem compileQuery_isolates_of_unknown_element :
    let named : ChosenFilter := ⟨"F1", ⟨[.comparing .isNull "NAME" (.text "")]⟩, .and⟩
    let broken : ChosenFilter := ⟨"F2", ⟨[.malformed .unknownElement]⟩, .and⟩
    let q := compileQuery .filterMarkup {} ⟨"reefs", [], [], [named, broken], none, []⟩
    q.filter = (compileQuery .filterMarkup {} ⟨"reefs", [], [], [named], none, []⟩).filter ∧
      q.filter ≠ none := by
  intro named broken q
  have hbroken : broken.IsSilent (Dialect.filterMarkup.grammar {}) none := by
    right
    intro n hn
    rw [List.mem_singleton.1 hn]
    rfl
  have hlone : ¬ (Dialect.filterMarkup = .filterMarkup ∧
      Resolution.IsLoneSelection ⟨"reefs", [], [], [named], none, []⟩) := by
    rintro ⟨-, f, hf, hselection⟩
    rw [← (List.cons.inj hf).1] at hselection
    cases hselection
  have hfilters : [named, broken] = [named] ++ broken :: [] := rfl
  constructor
  · exact ((compileQuery_isolates .filterMarkup {}
      (r := ⟨"reefs", [], [], [named, broken], none, []⟩) hfilters hbroken).2.1 hlone).1
  · decide

/-- A selection of feature ids is lost beside a filter whose only node could not be understood, and
makes a document without it. -/
theorem compileQuery_of_masked_reef :
    let broken : ChosenFilter := ⟨"F1", ⟨[.malformed .unknownElement]⟩, .and⟩
    let chosen : ChosenFilter := ⟨"F2", ⟨[.ids ["reefs.1"]]⟩, .and⟩
    broken.IsSilent (Dialect.filterMarkup.grammar {}) none ∧
      (compileQuery .filterMarkup {} ⟨"reefs", [], [], [broken, chosen], none, []⟩).filter = none ∧
      (compileQuery .filterMarkup {} ⟨"reefs", [], [], [chosen], none, []⟩).filter =
        some (FilterMarkup.documentOpen ++ "<ogc:FeatureId fid=\"reefs.1\"/>" ++
          FilterMarkup.documentClose) := by
  intro broken chosen
  refine ⟨Or.inr ?_, by decide, by decide⟩
  intro n hn
  rw [List.mem_singleton.1 hn]
  rfl

end MapQuery
