import MapQuery.Proofs.Dialect.Fragments
import MapQuery.Proofs.Filter.Parts
import MapQuery.Proofs.Request.Isolation
import MapQuery.Proofs.Workspace.Selection

/-!
# Accounts of selections

A compiled query accounts for all that the entries of its layer select: every area has its place in
it, and every filter either says something in it, which the filter parameter keeps, or is told of.
Nothing else has a part in it.
-/

set_option autoImplicit false

namespace MapQuery

/-! ## Malformed parts of filters -/

/-- Whether a filter holds a node that could not be understood. -/
def Filter.HoldsMalformed (f : Filter) : Prop :=
  ∃ n ∈ f.nodes, ∃ why, (Node.malformed why).IsPart n

theorem Node.exists_malformationOfList? {n : Node} {nodes : List Node} (hn : n ∈ nodes)
    (h : ∃ why, n.malformation? = some why) : ∃ why, malformationOfList? nodes = some why := by
  obtain ⟨why, hwhy⟩ := h
  have hsome : (nodes.findSome? malformation?).isSome = true := by
    rw [List.findSome?_isSome_iff]
    exact ⟨n, hn, by rw [hwhy]; rfl⟩
  rw [malformationOfList?_eq_findSome?]
  exact Option.isSome_iff_exists.1 hsome

theorem Node.exists_malformation? {n : Node} {why : Malformation}
    (h : (Node.malformed why).IsPart n) : ∃ first, n.malformation? = some first := by
  induction h with
  | self => exact ⟨why, rfl⟩
  | child hmem _ ih => exact exists_malformationOfList? hmem ih
  | negated _ ih => exact ih

theorem Filter.exists_malformation? {f : Filter} (h : f.HoldsMalformed) :
    ∃ first, f.malformation? = some first := by
  obtain ⟨n, hn, why, hpart⟩ := h
  exact Node.exists_malformationOfList? hn (Node.exists_malformation? hpart)

/-! ## Filters that say something -/

namespace ChosenFilter

variable {g : Grammar} {columns : Option Columns} {r : Resolution} {f : ChosenFilter}

theorem contribution_eq_fragment (h : (f.contribution g columns r).1 ≠ []) :
    (f.contribution g columns r).1 = g.fragment f.group f.filter := by
  unfold contribution at h ⊢
  split
  · next hrefusal =>
    simp only [hrefusal] at h
    exact absurd rfl h
  · rfl

/-- A filter that says nothing is told of. -/
theorem exists_advisory (h : (f.contribution g columns r).1 = []) :
    ∃ a ∈ (f.contribution g columns r).2, a.filterId? = some f.id := by
  suffices hsome : ∃ a, a ∈ (f.contribution g columns r).2 by
    obtain ⟨a, ha⟩ := hsome
    exact ⟨a, ha, filterId?_of_mem_contribution a ha⟩
  unfold contribution at h ⊢
  split
  · exact ⟨_, List.mem_singleton_self _⟩
  · next hrefusal =>
    simp only [hrefusal] at h
    exact ⟨.emptyFilter f.id, by simp [h]⟩

/-- So is one that holds a malformed node. -/
theorem exists_malformedFilter (h : (f.contribution g columns r).1 ≠ [])
    (hmalformed : f.filter.HoldsMalformed) :
    ∃ reason, Advisory.malformedFilter f.id reason ∈ (f.contribution g columns r).2 := by
  obtain ⟨first, hfirst⟩ := Filter.exists_malformation? hmalformed
  unfold contribution at h ⊢
  split
  · next hrefusal =>
    simp only [hrefusal] at h
    exact absurd rfl h
  · exact ⟨first.message, by simp [hfirst]⟩

end ChosenFilter

namespace Resolution

/-- The filters that say something in a compiled query. -/
def contributing (r : Resolution) (d : Dialect) (o : CompileOptions) : List ChosenFilter :=
  r.filters.filter fun f => !(f.contribution (d.grammar o) o.columns r).1.isEmpty

/-- The fragments of the filters that say something. -/
def fragments (r : Resolution) (d : Dialect) (o : CompileOptions) : List Text :=
  (r.contributing d o).map fun f => (d.grammar o).fragment f.group f.filter

variable {r : Resolution} {d : Dialect} {o : CompileOptions}

theorem contribution_ne_nil {f : ChosenFilter} (hf : f ∈ r.contributing d o) :
    (f.contribution (d.grammar o) o.columns r).1 ≠ [] := by
  simpa using (List.mem_filter.1 hf).2

theorem fragment_ne_nil {f : ChosenFilter} (hf : f ∈ r.contributing d o) :
    (d.grammar o).fragment f.group f.filter ≠ [] := by
  have hne := contribution_ne_nil hf
  rwa [ChosenFilter.contribution_eq_fragment hne] at hne

theorem fragments_eq (r : Resolution) (d : Dialect) (o : CompileOptions) :
    r.fragments d o = ((r.filters.map fun f => f.contribution (d.grammar o) o.columns r).map
      Prod.fst).filter (!·.isEmpty) := by
  rw [List.map_map, List.filter_map, fragments, contributing]
  apply List.map_congr_left
  intro f hf
  exact (ChosenFilter.contribution_eq_fragment (contribution_ne_nil hf)).symm

end Resolution

/-- In the languages that have predicates for areas, those of the areas of a resolution. -/
theorem predicates_spatial {d : Dialect} {o : CompileOptions} {p : Bool → Shape Float → Text}
    (hp : ∀ included, d.areaPredicate? o included = some ∘ p included) (included : Bool)
    (areas : List ChosenArea) : (areas.map ChosenArea.shape).filterMap (d.areaPredicate? o included) =
      areas.map fun a => p included a.shape := by
  rw [hp, List.filterMap_eq_map, List.map_map]
  rfl

/-- The filter parameter is made of the areas and the fragments and of nothing else. -/
theorem filter_compileQuery (d : Dialect) (o : CompileOptions) (r : Resolution) :
    (compileQuery d o r).filter = (d.grammar o).finish (Quotation.restore (d.composite o
      (r.included.map ChosenArea.shape) (r.excluded.map ChosenArea.shape) r.group
      (r.fragments d o))) := by
  have hmerged : (d.grammar o).merge .and (((d.grammar o).spatial r).predicates ++
      [(d.grammar o).merge r.group (r.fragments d o)]) =
        d.composite o (r.included.map ChosenArea.shape) (r.excluded.map ChosenArea.shape) r.group
          (r.fragments d o) := by
    cases d with
    | filterMarkup =>
      have hareas := predicates_spatial (d := .filterMarkup) (o := o)
        (p := FilterMarkup.condition o.geometryColumn) fun _ => rfl
      rw [Dialect.composite, hareas, hareas]
      rfl
    | cqlText =>
      have hareas := predicates_spatial (d := .cqlText) (o := o)
        (p := fun included s => Text.paren (CqlText.condition o.geometryColumn included s))
        fun _ => rfl
      rw [Dialect.composite, hareas, hareas]
      rfl
    | whereClause =>
      have hnone (included : Bool) (shapes : List (Shape Float)) :
          shapes.filterMap (Dialect.whereClause.areaPredicate? o included) = [] :=
        List.filterMap_eq_nil_iff.2 fun _ _ => rfl
      rw [Dialect.composite, hnone, hnone]
      rfl
  rw [← hmerged, Resolution.fragments_eq]
  rfl

/-! ## Advisories -/

section

variable {d : Dialect} {o : CompileOptions} {r : Resolution}

theorem mem_advisories_of_contribution {f : ChosenFilter} (hf : f ∈ r.filters) {a : Advisory}
    (ha : a ∈ (f.contribution (d.grammar o) o.columns r).2) :
    a ∈ (compileQuery d o r).advisories := by
  refine List.mem_append_left _ (List.mem_append_right _ ?_)
  exact List.mem_flatMap.2 ⟨_, List.mem_map_of_mem hf, ha⟩

/-- A filter that does not contribute is named. -/
theorem mem_contributing_or_exists_advisory {f : ChosenFilter} (hf : f ∈ r.filters) :
    f ∈ r.contributing d o ∨ ∃ a ∈ (compileQuery d o r).advisories, a.filterId? = some f.id := by
  by_cases htext : (f.contribution (d.grammar o) o.columns r).1 = []
  · obtain ⟨a, ha, hid⟩ := ChosenFilter.exists_advisory htext
    exact .inr ⟨a, mem_advisories_of_contribution hf ha, hid⟩
  · exact .inl (List.mem_filter.2 ⟨hf, by simpa using htext⟩)

theorem exists_malformedFilter_of_contributing {f : ChosenFilter} (hf : f ∈ r.contributing d o)
    (hmalformed : f.filter.HoldsMalformed) :
    ∃ reason, Advisory.malformedFilter f.id reason ∈ (compileQuery d o r).advisories := by
  obtain ⟨reason, ha⟩ :=
    ChosenFilter.exists_malformedFilter (Resolution.contribution_ne_nil hf) hmalformed
  exact ⟨reason, mem_advisories_of_contribution (List.mem_filter.1 hf).1 ha⟩

theorem filterId?_of_mem_spatial {a : Advisory} (ha : a ∈ ((d.grammar o).spatial r).advisories) :
    a.filterId? = none := by
  cases d with
  | filterMarkup => cases ha
  | cqlText => cases ha
  | whereClause =>
    change a ∈ (if r.excluded.isEmpty then []
      else [Advisory.unsupportedExclusion r.layerId r.excluded.length]) at ha
    split at ha
    · cases ha
    · rw [List.mem_singleton.1 ha]
      rfl

/-- Advisories name nothing but chosen filters, and those that the resolution already names. -/
theorem exists_of_mem_advisories {a : Advisory} (ha : a ∈ (compileQuery d o r).advisories)
    {id : Text} (hid : a.filterId? = some id) :
    a ∈ r.advisories ∨ ∃ f ∈ r.filters, f.id = id := by
  rcases List.mem_append.1 ha with ha | ha
  · rcases List.mem_append.1 ha with ha | ha
    · exact .inl ha
    · obtain ⟨contribution, hcontribution, ha⟩ := List.mem_flatMap.1 ha
      obtain ⟨f, hf, rfl⟩ := List.mem_map.1 hcontribution
      rw [ChosenFilter.filterId?_of_mem_contribution a ha, Option.some.injEq] at hid
      exact .inr ⟨f, hf, hid⟩
  · rw [filterId?_of_mem_spatial ha] at hid
    cases hid

end

/-! ## Areas that are sent as rings -/

theorem Json.Value.infix_compact_array {v : Value} {items : List Value} (h : v ∈ items) :
    v.compact <:+: (array items).compact := by
  have hitem : v.compact ∈ compactItems items := by
    rw [compactItems_eq_map]
    exact List.mem_map_of_mem h
  exact List.infix_cons ((Text.infix_joined hitem).trans (List.prefix_append _ _).isInfix)

theorem Json.Value.infix_compact_object {m : Text × Value} {members : List (Text × Value)}
    (h : m ∈ members) : m.2.compact <:+: (object members).compact := by
  have hmember : stringText m.1 ++ ":" ++ m.2.compact ∈ compactMembers members := by
    rw [compactMembers_eq_map]
    exact List.mem_map_of_mem (f := fun m => stringText m.1 ++ ":" ++ compact m.2) h
  have hvalue : m.2.compact <:+: stringText m.1 ++ ":" ++ m.2.compact :=
    (List.suffix_append _ _).isInfix
  exact List.infix_cons ((hvalue.trans (Text.infix_joined hmember)).trans
    (List.prefix_append _ _).isInfix)

/-- The rings of every shape stand in the text of all shapes. -/
theorem Rings.infix_text {shapes : List (Shape Float)} {s : Shape Float} (hs : s ∈ shapes)
    {ring : Ring Float} (hring : ring ∈ ofShapes [s]) :
    (Shape.ringValue ring).compact <:+: text shapes := by
  have hmem : Shape.ringValue ring ∈ (ofShapes shapes).map Shape.ringValue := by
    refine List.mem_map_of_mem (List.mem_flatMap.2 ⟨s, hs, ?_⟩)
    rwa [ofShapes, List.flatMap_singleton] at hring
  exact (Json.Value.infix_compact_array hmem).trans
    (Json.Value.infix_compact_object (m := ("rings".toList, _)) List.mem_cons_self)

/-! ## The account -/

namespace Content

variable {c : Content} {layer : Layer}

theorem mem_shapes_of_mem_selectedAreas {included : Bool} {a : Area}
    (ha : a ∈ c.selectedAreas layer.id included) :
    a.shape ∈ (c.chosenAreas (c.entriesFor layer.id) included).map ChosenArea.shape :=
  List.mem_map.2 ⟨_, mem_chosenAreas.2 ⟨a, ha, rfl⟩, rfl⟩

theorem mem_filters_resolve {x : ChosenFilter} :
    x ∈ (c.resolve layer).filters ↔ ∃ f ∈ c.selectedFilters layer,
      f.id = x.id ∧ f.body = .ok x.filter ∧ c.groupOf? layer f = some x.group := by
  simp only [resolve, List.mem_filterMap, mem_chosenFilters]
  constructor
  · rintro ⟨⟨f, op⟩, ⟨hf, hgroup⟩, hx⟩
    obtain ⟨filter, hbody, rfl⟩ := Option.map_eq_some_iff.1 hx
    exact ⟨f, hf, rfl, by cases hok : f.body <;> simp_all [Except.toOption], hgroup⟩
  · rintro ⟨f, hf, hid, hbody, hgroup⟩
    refine ⟨(f, x.group), ⟨hf, hgroup⟩, ?_⟩
    simp [hbody, hid, Except.toOption]

theorem mem_advisories_resolve {a : Advisory} :
    a ∈ (c.resolve layer).advisories ↔ ∃ f ∈ c.selectedFilters layer, ∃ misfit,
      f.body = .error misfit ∧ a = .malformedFilter f.id misfit.message := by
  simp only [resolve, List.mem_filterMap, mem_chosenFilters]
  constructor
  · rintro ⟨⟨f, op⟩, ⟨hf, -⟩, ha⟩
    cases hbody : f.body with
    | ok filter => simp [hbody] at ha
    | error misfit => exact ⟨f, hf, misfit, hbody, by simpa [hbody] using ha.symm⟩
  · rintro ⟨f, hf, misfit, hbody, rfl⟩
    obtain ⟨op, hop⟩ := exists_groupOf? hf
    exact ⟨(f, op), ⟨hf, hop⟩, by simp [hbody]⟩

end Content

/-- How a compiled query accounts for what the entries of its layer select. -/
structure Accounts (c : Content) (layer : Layer) (d : Dialect) (o : CompileOptions)
    (r : Resolution) (q : CompiledQuery) : Prop where
  /-- The areas of the resolution are the selected ones. -/
  areas : ∀ x, (x ∈ r.included ↔ ∃ a ∈ c.selectedAreas layer.id true, x = ⟨a.id, a.shape⟩) ∧
    (x ∈ r.excluded ↔ ∃ a ∈ c.selectedAreas layer.id false, x = ⟨a.id, a.shape⟩)
  /-- The filter parameter is made of their predicates and of fragments of filters. -/
  filter : q.filter = (d.grammar o).finish (Quotation.restore (d.composite o
    (r.included.map ChosenArea.shape) (r.excluded.map ChosenArea.shape) r.group
    (r.fragments d o)))
  /-- In the languages with predicates for areas the filter parameter shows every selected area. -/
  shown : d ≠ .whereClause → ∀ included, ∀ a ∈ c.selectedAreas layer.id included,
    ∃ value, q.filter = some value ∧ d.Shows o included a.shape value
  /-- In where clauses the included areas are sent as a geometry of their own, -/
  sent : d = .whereClause → ∀ a ∈ c.selectedAreas layer.id true,
    ∃ text, ("geometry".toList, text) ∈ q.params ∧
      ∀ ring ∈ Rings.ofShapes [a.shape], (Shape.ringValue ring).compact <:+: text
  /-- and the excluded ones are counted. -/
  counted : d = .whereClause → c.selectedAreas layer.id false ≠ [] →
    .unsupportedExclusion layer.id (c.selectedAreas layer.id false).length ∈ q.advisories
  /-- A filter that contributes is a selected one that can be read, under the operator of the first
  entry that selects it. -/
  contributing : ∀ x ∈ r.contributing d o, ∃ f ∈ c.selectedFilters layer,
    f.id = x.id ∧ f.body = .ok x.filter ∧ c.groupOf? layer f = some x.group
  /-- What it says is kept in the filter parameter. -/
  kept : ∀ x ∈ r.contributing d o, ∃ value, q.filter = some value ∧
    d.Keeps r.group (r.fragments d o) ((d.grammar o).fragment x.group x.filter) value
  /-- Every selected filter contributes its fragment so or is named by an advisory. -/
  told : ∀ f ∈ c.selectedFilters layer,
    (∃ filter op, f.body = .ok filter ∧ c.groupOf? layer f = some op ∧
      ⟨f.id, filter, op⟩ ∈ r.contributing d o ∧
      (d.grammar o).fragment op filter ∈ r.fragments d o) ∨
    ∃ a ∈ q.advisories, a.filterId? = some f.id
  /-- One that contributes and holds a malformed node is named as such. -/
  malformed : ∀ x ∈ r.contributing d o, x.filter.HoldsMalformed →
    ∃ reason, .malformedFilter x.id reason ∈ q.advisories
  /-- Advisories name selected filters only. -/
  named : ∀ a ∈ q.advisories, ∀ id, a.filterId? = some id →
    ∃ f ∈ c.selectedFilters layer, f.id = id
  /-- Without all that is not selected the query is the same. -/
  pruned : compileQuery d o ((c.pruned layer).resolve layer) = q

/-- Nothing that a layer's entries select is lost without a trace, and nothing else has a part in the
compiled query. -/
theorem compileQuery_accounts (c : Content) (layer : Layer) (d : Dialect) (o : CompileOptions) :
    Accounts c layer d o (c.resolve layer) (compileQuery d o (c.resolve layer)) where
  areas x := ⟨Content.mem_chosenAreas, Content.mem_chosenAreas⟩
  filter := filter_compileQuery d o _
  shown := by
    intro hd included a ha
    rw [filter_compileQuery]
    apply Dialect.exists_shows_composite hd
    have hshape := Content.mem_shapes_of_mem_selectedAreas ha
    cases included <;> exact hshape
  sent := by
    rintro rfl a ha
    have hshape := Content.mem_shapes_of_mem_selectedAreas ha
    have hne : (c.resolve layer).included.isEmpty = false := by
      rw [List.isEmpty_eq_false_iff]
      intro hnil
      rw [show c.chosenAreas (c.entriesFor layer.id) true = [] from hnil] at hshape
      cases hshape
    refine ⟨Rings.text ((c.resolve layer).included.map ChosenArea.shape), ?_,
      fun ring hring => Rings.infix_text hshape hring⟩
    change _ ∈ WhereClause.areaParams (c.resolve layer)
    rw [WhereClause.areaParams, hne]
    exact List.mem_cons_self
  counted := by
    rintro rfl hne
    have hlength : (c.resolve layer).excluded.length = (c.selectedAreas layer.id false).length :=
      Content.length_chosenAreas c layer.id false
    have hsome : (c.resolve layer).excluded.isEmpty = false := by
      rw [List.isEmpty_eq_false_iff]
      intro hnil
      rw [hnil] at hlength
      exact hne (List.length_eq_zero_iff.1 hlength.symm)
    refine List.mem_append_right _ ?_
    change _ ∈ (if (c.resolve layer).excluded.isEmpty then []
      else [Advisory.unsupportedExclusion layer.id (c.resolve layer).excluded.length])
    rw [hsome, hlength]
    exact List.mem_singleton_self _
  contributing x hx := Content.mem_filters_resolve.1 (List.mem_filter.1 hx).1
  kept := by
    intro x hx
    rw [filter_compileQuery]
    exact Dialect.exists_keeps_composite d o _ _ _ (List.mem_map_of_mem hx)
      (Resolution.fragment_ne_nil hx)
  told := by
    intro f hf
    obtain ⟨op, hop⟩ := Content.exists_groupOf? hf
    cases hbody : f.body with
    | error misfit =>
      have ha := Content.mem_advisories_resolve.2 ⟨f, hf, misfit, hbody, rfl⟩
      exact .inr ⟨_, List.mem_append_left _ (List.mem_append_left _ ha), rfl⟩
    | ok filter =>
      have hx := Content.mem_filters_resolve (x := ⟨f.id, filter, op⟩).2 ⟨f, hf, rfl, hbody, hop⟩
      rcases mem_contributing_or_exists_advisory (d := d) (o := o) hx with hused | htold
      · exact .inl ⟨filter, op, rfl, hop, hused, List.mem_map_of_mem hused⟩
      · exact .inr htold
  malformed x hx := exists_malformedFilter_of_contributing hx
  named := by
    intro a ha id hid
    rcases exists_of_mem_advisories ha hid with ha | ⟨x, hx, rfl⟩
    · obtain ⟨f, hf, misfit, -, rfl⟩ := Content.mem_advisories_resolve.1 ha
      exact ⟨f, hf, Option.some.inj hid⟩
    · obtain ⟨f, hf, hid, -⟩ := Content.mem_filters_resolve.1 hx
      exact ⟨f, hf, hid⟩
  pruned := by rw [Content.resolve_pruned]

end MapQuery
