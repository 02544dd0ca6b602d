import MapQuery.Proofs.Dialect.Elements
import MapQuery.Proofs.Request.Conjunction
import MapQuery.Proofs.Request.Selections

/-!
# Filter documents

The filter parameter of a markup request is one document, whatever the query holds: with one element
in it that selects no feature ids, or with a selection of feature ids and nothing else. A time
window is joined with the former and passed over by the latter.
-/

set_option autoImplicit false

namespace MapQuery

open Markup (Spells Tree)

/-- The feature ids of a filter that does nothing but select them, where it is all that a layer
selects. -/
def Resolution.soleIds (r : Resolution) : List Text :=
  match r.filters with
  | [f] =>
    match f.filter.nodes with
    | [.ids list] => if r.included.isEmpty && r.excluded.isEmpty then list else []
    | _ => []
  | _ => []

namespace Resolution

variable {r : Resolution} {f : ChosenFilter}

theorem exists_of_soleIds_ne_nil (h : r.soleIds ≠ []) :
    ∃ f, r.filters = [f] ∧ f.filter.nodes = [.ids r.soleIds] ∧
      r.isStandaloneSelection f.filter = true := by
  unfold soleIds at h ⊢
  split at h
  · next f hfilters =>
    split at h
    · next list hnodes =>
      by_cases hareas : (r.included.isEmpty && r.excluded.isEmpty) = true
      · refine ⟨f, hfilters, ?_, ?_⟩
        · simp only [hnodes, hareas, if_true]
        · rw [Bool.and_eq_true, List.isEmpty_iff, List.isEmpty_iff] at hareas
          exact isStandaloneSelection_iff.2 ⟨congrArg List.length hfilters,
            Filter.isIdSelection_iff.2 ⟨list, hnodes⟩, hareas⟩
      · rw [if_neg hareas] at h
        exact absurd rfl h
    · exact absurd rfl h
  · exact absurd rfl h

theorem nodes_of_isStandaloneSelection (hf : f ∈ r.filters)
    (h : r.isStandaloneSelection f.filter = true) : f.filter.nodes = [.ids r.soleIds] := by
  obtain ⟨hlength, hids, hincluded, hexcluded⟩ := isStandaloneSelection_iff.1 h
  obtain ⟨f', hfilters⟩ := List.length_eq_one_iff.1 hlength
  obtain ⟨list, hlist⟩ := Filter.isIdSelection_iff.1 hids
  rw [hfilters, List.mem_singleton] at hf
  subst hf
  simp [soleIds, hfilters, hlist, hincluded, hexcluded]

end Resolution

namespace FilterMarkup

def document (body : Text) : Text := documentOpen ++ body ++ documentClose

/-- The names that a document declares. -/
def namespaces : List (Text × Text) :=
  [("xmlns:ogc", "http://www.opengis.net/ogc"), ("xmlns:gml", "http://www.opengis.net/gml")]

theorem document_eq_element (body : Text) :
    document body = Markup.element "ogc:Filter" namespaces body := by
  have hopen : documentOpen = Markup.tagText "ogc:Filter" namespaces ++ ['>'] := by
    decide +kernel
  have hclose : documentClose = "</" ++ "ogc:Filter" ++ ">" := by decide
  rw [document, hopen, hclose]
  simp [Markup.element, Markup.tagText]

theorem finish_eq_document {body : Text} (h : body ≠ []) : finish body = some (document body) :=
  if_neg (mt List.isEmpty_iff.1 h)

theorem content_document (body : Text) : content (document body) = body := by
  have hopened : Text.dropBeginning? documentOpen (document body) = some (body ++ documentClose) :=
    Text.dropBeginning?_eq_some_iff.2 (List.append_assoc _ _ _)
  have hclosed : Text.dropEnd? documentClose (body ++ documentClose) = some body :=
    Text.dropEnd?_eq_some_iff.2 rfl
  rw [content, hopened, Option.bind_some, hclosed]
  rfl

theorem content_time (w : TimeWindow) (wholeSeconds : Bool) (lower upper : Instant) :
    content (time w wholeSeconds lower upper) = time w wholeSeconds lower upper := rfl

theorem IsIdFree.ne_nil {s : Text} {t : Tree} (h : IsIdFree s [t]) : s ≠ [] := by
  rintro rfl
  cases h.spells.unique .nil

theorem IsIdFree.document {body : Text} {t : Tree} (h : IsIdFree body [t]) :
    IsIdFree (document body) [.element "ogc:Filter" namespaces [t]] := by
  rw [document_eq_element]
  exact h.element (by decide) (by decide)

theorem conjoin_document {body : Text} {c : Tree} (hbody : IsIdFree body [c]) (w : TimeWindow)
    (wholeSeconds : Bool) (lower upper : Instant) :
    let p := time w wholeSeconds lower upper
    conjoin (document body) p = document (element "And" (body ++ p)) := by
  intro p
  obtain ⟨t, hp⟩ := isIdFree_time w wholeSeconds lower upper
  have hbodyne := hbody.ne_nil
  have hpne : p ≠ [] := hp.ne_nil
  have hmerge : merge .and [body, p] = element "And" (body ++ p) := by
    simp [merge, Writer.joinParts, hbodyne, hpne, writer, join, Connective.name]
  rw [conjoin, hbody.document.occursIn_eq_false, hp.occursIn_eq_false, content_document,
    content_time, hmerge]
  rfl

/-- The element of a feature id. -/
def idTree (id : Text) : Tree := .element idName [("fid", id)] []

theorem spells_ids (list : List Text) : Spells (writer.ids list) (list.map idTree) := by
  have htag : ∀ id : Text, Markup.IsTag idName [("fid", id)] := fun id =>
    ⟨by decide, by simp; decide, by simp⟩
  have hid : ∀ id, featureId id = Markup.tagText idName [("fid", id)] ++ "/>" := by
    intro id
    have hopen : idMark ++ " fid=\"" = '<' :: (idName ++ (" " ++ "fid" ++ "=\"")) := by decide
    have hclose : ("\"/>" : Text) = "\"" ++ "/>" := by decide
    rw [featureId, hopen, hclose, Markup.tagText, List.flatMap_singleton, Markup.attributeText]
    simp only [List.append_assoc, List.cons_append]
  induction list with
  | nil => exact .nil
  | cons id rest ih =>
    change Spells (featureId id ++ writer.ids rest) _
    rw [hid]
    exact .lone (htag id) ih

theorem merge_singleton (op : Connective) (p : Text) : merge op [p] = p := by
  cases p <;> rfl

/-- The predicate of a query, its parentheses not yet restored. -/
def predicate (o : CompileOptions) (r : Resolution) : Text :=
  merge .and ((spatial o.geometryColumn r).predicates ++
    [merge r.group (((r.filters.map fun f => f.contribution (grammar o) o.columns r).map
      Prod.fst).filter (!·.isEmpty))])

theorem filter_eq_finish (o : CompileOptions) (r : Resolution) :
    (compileQuery .filterMarkup o r).filter = finish (Quotation.restore (predicate o r)) := rfl

theorem isPart_contribution {o : CompileOptions} {r : Resolution} (hsole : r.soleIds = [])
    {f : ChosenFilter} (hf : f ∈ r.filters) :
    IsPart (f.contribution (grammar o) o.columns r).1 := by
  unfold ChosenFilter.contribution
  split
  · exact Or.inl rfl
  · next hrefusal =>
    apply isPart_merge
    intro p hp
    rw [Writer.nodes_eq_map] at hp
    obtain ⟨n, hn, rfl⟩ := List.mem_map.1 hp
    cases hselects : f.filter.selectsIds with
    | false =>
      rw [Filter.selectsIds, Node.anySelectsIds_eq_any, List.any_eq_false] at hselects
      exact isPart_node (by simpa using hselects n hn)
    | true =>
      -- Not refused, the filter stands alone, so its only ids are those there are none of.
      have halone := ChosenFilter.isStandaloneSelection_of_refusal?_eq_none rfl hselects hrefusal
      rw [Resolution.nodes_of_isStandaloneSelection hf halone, hsole, List.mem_singleton] at hn
      rw [hn]
      exact Or.inl rfl

theorem isPart_predicate {o : CompileOptions} {r : Resolution} (hsole : r.soleIds = []) :
    IsPart (predicate o r) := by
  apply isPart_merge
  intro p hp
  rcases List.mem_append.1 hp with hp | hp
  · exact isPart_spatial o.geometryColumn r p hp
  · rw [List.mem_singleton.1 hp]
    apply isPart_merge
    intro t ht
    rw [List.map_map] at ht
    obtain ⟨f, hf, rfl⟩ := List.mem_map.1 (List.mem_filter.1 ht).1
    exact isPart_contribution hsole hf

/-- Unless feature ids are all that is selected, a compiled query restricts nothing or has one
element for its filter. -/
theorem filter_of_soleIds_eq_nil (o : CompileOptions) {r : Resolution} (hsole : r.soleIds = []) :
    let q := compileQuery .filterMarkup o r
    q.filter = none ∨ ∃ body t, q.filter = some (document body) ∧ IsIdFree body [t] := by
  intro q
  have hfilter : q.filter = finish (Quotation.restore (predicate o r)) := filter_eq_finish o r
  rcases (isPart_predicate (o := o) hsole).restore with hnil | ⟨t, ht⟩
  · rw [hnil] at hfilter
    exact Or.inl hfilter
  · rw [finish_eq_document ht.ne_nil] at hfilter
    exact Or.inr ⟨_, t, hfilter, ht⟩

theorem ids_ne_nil {list : List Text} (h : list ≠ []) : writer.ids list ≠ [] := by
  cases list with
  | nil => exact absurd rfl h
  | cons id rest => exact List.cons_ne_nil _ _

/-- Where feature ids are all that is selected, the compiled query has their elements for its
filter. -/
theorem filter_of_soleIds_ne_nil (o : CompileOptions) {r : Resolution} (hsole : r.soleIds ≠ []) :
    (compileQuery .filterMarkup o r).filter =
      some (document (Quotation.restore (writer.ids r.soleIds))) := by
  obtain ⟨f, hfilters, hnodes, halone⟩ := Resolution.exists_of_soleIds_ne_nil hsole
  obtain ⟨-, -, hincluded, hexcluded⟩ := Resolution.isStandaloneSelection_iff.1 halone
  have hids := ids_ne_nil hsole
  have hnode : writer.nodes f.filter.nodes = [writer.ids r.soleIds] := by
    rw [hnodes]
    simp [Writer.nodes, Writer.node, hsole]
  have hcontribution : (f.contribution (grammar o) o.columns r).1 = writer.ids r.soleIds := by
    rw [ChosenFilter.contribution, ChosenFilter.refusal?_of_ids _ _ _ hnodes, halone,
      Bool.not_true, Bool.and_false]
    change merge f.group (writer.nodes f.filter.nodes) = _
    rw [hnode, merge_singleton]
  have hpredicate : predicate o r = writer.ids r.soleIds := by
    have hspatial : (spatial o.geometryColumn r).predicates = [[]] := by
      simp only [spatial, hincluded, hexcluded]
      rfl
    rw [predicate, hspatial, hfilters]
    simp only [List.map_cons, List.map_nil, hcontribution]
    rw [List.filter_cons_of_pos (by simpa using hids), List.filter_nil, merge_singleton]
    exact merge_singleton .and _
  have hne : Quotation.restore (writer.ids r.soleIds) ≠ [] := mt List.map_eq_nil_iff.1 hids
  rw [filter_eq_finish, hpredicate, finish_eq_document hne]

/-! ### Requests -/

/-- The filter parameter after a request without parameters of its own has passed through the
modifiers of a query and its time window. -/
def sentFilter (o : CompileOptions) (r : Resolution) (time : Option TimePart) : Option Text :=
  let g := Dialect.filterMarkup.grammar o
  let q := compileQuery .filterMarkup o r
  ((Pipeline.empty.install g q.params q.filter time).apply .empty).get? g.parameter

theorem get?_mergeFilter (g : Grammar) (alone addition : Text) (p : Parameters) :
    (Modifier.mergeFilter g alone addition p).get? g.parameter =
      some (if (filterParameter g p).isEmpty then alone
        else g.conjoin (filterParameter g p) addition) :=
  Parameters.get?_set_self p g.parameter _

theorem get?_ofQuery (o : CompileOptions) (r : Resolution) :
    let g := Dialect.filterMarkup.grammar o
    let q := compileQuery .filterMarkup o r
    ((Modifier.ofQuery g q.params q.filter).apply .empty).get? g.parameter = q.filter := by
  intro g q
  have hparams : q.params = [] := rfl
  rw [hparams]
  cases hfilter : q.filter with
  | none => rfl
  | some text => exact get?_mergeFilter g text text .empty

theorem sentFilter_none (o : CompileOptions) (r : Resolution) :
    sentFilter o r none = (compileQuery .filterMarkup o r).filter := by
  rw [sentFilter, Pipeline.apply_install]
  exact get?_ofQuery o r

theorem sentFilter_predicate (o : CompileOptions) (r : Resolution) (p : Text) :
    sentFilter o r (some (.predicate p)) =
      some (if ((compileQuery .filterMarkup o r).filter.getD []).isEmpty then (finish p).getD []
        else conjoin ((compileQuery .filterMarkup o r).filter.getD []) p) := by
  rw [sentFilter, Pipeline.apply_install]
  refine (get?_mergeFilter _ _ _ _).trans ?_
  rw [filterParameter, get?_ofQuery]
  rfl

theorem document_ne_nil (body : Text) : document body ≠ [] := List.cons_ne_nil _ _

theorem exists_predicate_of_window {o : CompileOptions} {window : Option TimeWindow}
    {wholeSeconds : Bool} {time : Option TimePart}
    (htime : (window.mapM fun w =>
      (Dialect.filterMarkup.grammar o).timePart? w wholeSeconds) = some time) :
    (window = none ∧ time = none) ∨ ∃ w lower upper, window = some w ∧
      time = some (.predicate (FilterMarkup.time w wholeSeconds lower upper)) := by
  cases window with
  | none => exact Or.inl ⟨rfl, (Option.some.inj htime).symm⟩
  | some w =>
    rw [Option.mapM_some] at htime
    obtain ⟨part, hpart, rfl⟩ := Option.map_eq_some_iff.1 htime
    obtain ⟨⟨lower, upper⟩, -, rfl⟩ := Option.map_eq_some_iff.1 hpart
    exact Or.inr ⟨w, lower, upper, rfl, rfl⟩

/-- A selection of feature ids passes a time window over. -/
theorem conjoin_ids {list : List Text} (h : list ≠ []) (p : Text) :
    conjoin (document (Quotation.restore (writer.ids list))) p =
      document (Quotation.restore (writer.ids list)) := by
  have hmark : Text.occursIn idMark (document (Quotation.restore (writer.ids list))) = true := by
    rw [Text.occursIn_iff]
    cases list with
    | nil => exact absurd rfl h
    | cons id rest =>
      obtain ⟨x, hx⟩ : ∃ x, writer.ids (id :: rest) = idMark ++ x := by
        refine ⟨" fid=\"" ++ Markup.encode id ++ "\"/>" ++ writer.ids rest, ?_⟩
        change featureId id ++ writer.ids rest = _
        simp only [featureId, List.append_assoc]
      have hrestored : Quotation.restore idMark = idMark := by decide
      rw [hx, Quotation.restore_append, hrestored, document]
      exact ⟨documentOpen, Quotation.restore x ++ documentClose, by simp only [List.append_assoc]⟩
  rw [conjoin, hmark]
  rfl

theorem sentFilter_of_soleIds_ne_nil (o : CompileOptions) {r : Resolution} (hsole : r.soleIds ≠ [])
    {window : Option TimeWindow} {wholeSeconds : Bool} {time : Option TimePart}
    (htime : (window.mapM fun w =>
      (Dialect.filterMarkup.grammar o).timePart? w wholeSeconds) = some time) :
    sentFilter o r time = (compileQuery .filterMarkup o r).filter := by
  rcases exists_predicate_of_window htime with ⟨-, rfl⟩ | ⟨w, lower, upper, -, rfl⟩
  · exact sentFilter_none o r
  · have hne := document_ne_nil (Quotation.restore (writer.ids r.soleIds))
    rw [sentFilter_predicate, filter_of_soleIds_ne_nil o hsole, Option.getD_some,
      conjoin_ids hsole, if_neg (mt List.isEmpty_iff.1 hne)]

theorem IsIdFree.not_mem_names {s : Text} {t : Tree} (h : IsIdFree s [t]) : idName ∉ t.names := by
  intro hmem
  exact h.names idName (List.mem_append_left _ hmem) (List.prefix_refl idName)

theorem sentFilter_of_soleIds_eq_nil (o : CompileOptions) {r : Resolution} (hsole : r.soleIds = [])
    (w : TimeWindow) (wholeSeconds : Bool) (lower upper : Instant) :
    let filter := (compileQuery .filterMarkup o r).filter
    let p := time w wholeSeconds lower upper
    let sent := sentFilter o r (some (.predicate p))
    (filter = none ∧ sent = some (document p)) ∨
      ∃ body c, filter = some (document body) ∧ IsIdFree body [c] ∧
        sent = some (document (element "And" (body ++ p))) := by
  intro filter p sent
  obtain ⟨t, hp⟩ := isIdFree_time w wholeSeconds lower upper
  have hsent : sent = some (if (filter.getD []).isEmpty then (finish p).getD []
      else conjoin (filter.getD []) p) := sentFilter_predicate o r p
  rcases filter_of_soleIds_eq_nil o hsole with hnone | ⟨body, c, hfilter, hbody⟩
  · left
    refine ⟨hnone, ?_⟩
    have hfilter : filter = none := hnone
    rw [hsent, hfilter, finish_eq_document hp.ne_nil]
    rfl
  · right
    refine ⟨body, c, hfilter, hbody, ?_⟩
    have hsome : filter = some (document body) := hfilter
    have hne : ¬ (document body).isEmpty = true := mt List.isEmpty_iff.1 (document_ne_nil body)
    rw [hsent, hsome, Option.getD_some, if_neg hne, conjoin_document hbody w]

theorem sentFilter_lists_ids {o : CompileOptions} {r : Resolution} (hsole : r.soleIds ≠ [])
    {window : Option TimeWindow} {wholeSeconds : Bool} {time : Option TimePart}
    (htime : (window.mapM fun w =>
      (Dialect.filterMarkup.grammar o).timePart? w wholeSeconds) = some time) :
    let filter := (compileQuery .filterMarkup o r).filter
    sentFilter o r time = filter ∧ ∃ body, filter = some (document body) ∧
      Spells body (r.soleIds.map fun id => idTree (Quotation.restore id)) ∧
      ((∀ id ∈ r.soleIds, Quotation.shieldedOpen ∉ id ∧ Quotation.shieldedClose ∉ id) →
        Spells body (r.soleIds.map idTree)) := by
  intro filter
  have hspells := (spells_ids r.soleIds).restore
  rw [Tree.mapTextOfList_eq_map, List.map_map] at hspells
  refine ⟨sentFilter_of_soleIds_ne_nil o hsole htime, _, filter_of_soleIds_ne_nil o hsole,
    hspells, ?_⟩
  intro hplain
  have hids : r.soleIds.map (Tree.mapText Quotation.restore ∘ idTree) = r.soleIds.map idTree :=
    List.map_congr_left fun id hid =>
      congrArg idTree (Rendering.restored.text_eq_self (hplain id hid).1 (hplain id hid).2)
  rwa [hids] at hspells

theorem sentFilter_joins_window {o : CompileOptions} {r : Resolution} (hsole : r.soleIds = [])
    {window : Option TimeWindow} {wholeSeconds : Bool} {time : Option TimePart}
    (htime : (window.mapM fun w =>
      (Dialect.filterMarkup.grammar o).timePart? w wholeSeconds) = some time) :
    let sent := sentFilter o r time
    (sent = none ∨ ∃ body t, sent = some (document body) ∧ Spells body [t] ∧ idName ∉ t.names) ∧
      ∀ text ∈ (compileQuery .filterMarkup o r).filter, ∀ w ∈ window, ∃ body c p t,
        text = document body ∧ Spells body [c] ∧ time = some (.predicate p) ∧ Spells p [t] ∧
        sent = some (document (element "And" (body ++ p))) ∧
        Spells (element "And" (body ++ p)) [.element "ogc:And" [] [c, t]] := by
  intro sent
  rcases exists_predicate_of_window htime with ⟨rfl, rfl⟩ | ⟨w, lower, upper, rfl, rfl⟩
  · have hsent : sent = (compileQuery .filterMarkup o r).filter := sentFilter_none o r
    rw [hsent]
    constructor
    · rcases filter_of_soleIds_eq_nil o hsole with hnone | ⟨body, t, hfilter, hbody⟩
      · exact Or.inl hnone
      · exact Or.inr ⟨body, t, hfilter, hbody.spells, hbody.not_mem_names⟩
    · intro text _ w hw
      cases hw
  · obtain ⟨t, hp⟩ := isIdFree_time w wholeSeconds lower upper
    rcases sentFilter_of_soleIds_eq_nil o hsole w wholeSeconds lower upper with
      ⟨hnone, hsent⟩ | ⟨body, c, hfilter, hbody, hsent⟩
    · constructor
      · exact Or.inr ⟨_, t, hsent, hp.spells, hp.not_mem_names⟩
      · intro text htext
        rw [hnone] at htext
        cases htext
    · have hboth := isIdFree_join .and (hbody.append hp)
      constructor
      · exact Or.inr ⟨_, _, hsent, hboth.spells, hboth.not_mem_names⟩
      · intro text htext w' _
        rw [hfilter] at htext
        obtain rfl := Option.some.inj htext
        exact ⟨body, c, _, t, rfl, hbody.spells, rfl, hp.spells, hsent, hboth.spells⟩

/-- The filter that is sent is a document with one element that selects no feature ids, or, exactly
where feature ids are all that is selected, with the elements of those ids. A time window is joined
with the compiled filter in the first case and changes nothing in the second. -/
theorem sentFilter_isDocument {o : CompileOptions} {r : Resolution} {window : Option TimeWindow}
    {wholeSeconds : Bool} {time : Option TimePart}
    (htime : (window.mapM fun w =>
      (Dialect.filterMarkup.grammar o).timePart? w wholeSeconds) = some time) :
    let filter := (compileQuery .filterMarkup o r).filter
    let sent := sentFilter o r time
    (r.soleIds ≠ [] →
      sent = filter ∧ ∃ body, filter = some (document body) ∧
        Spells body (r.soleIds.map fun id => idTree (Quotation.restore id)) ∧
        ((∀ id ∈ r.soleIds, Quotation.shieldedOpen ∉ id ∧ Quotation.shieldedClose ∉ id) →
          Spells body (r.soleIds.map idTree))) ∧
    (r.soleIds = [] →
      (sent = none ∨ ∃ body t, sent = some (document body) ∧ Spells body [t] ∧
        idName ∉ t.names) ∧
      ∀ text ∈ filter, ∀ w ∈ window, ∃ body c p t, text = document body ∧ Spells body [c] ∧
        time = some (.predicate p) ∧ Spells p [t] ∧
        sent = some (document (element "And" (body ++ p))) ∧
        Spells (element "And" (body ++ p)) [.element "ogc:And" [] [c, t]]) := by
  intro filter sent
  constructor
  · intro hsole
    exact sentFilter_lists_ids hsole htime
  · intro hsole
    exact sentFilter_joins_window hsole htime

/-- A literal that looks like a selection of feature ids is joined with a time window as any other
one is. -/
theorem sentFilter_isDocument_of_disguised_literal :
    let node : Node := .comparing (.relation .equals) "NAME" (.text "<ogc:FeatureId fid='1'/>")
    let r : Resolution := ⟨"reefs", [], [], [⟨"F", ⟨[node]⟩, .and⟩], none, []⟩
    let w : TimeWindow := ⟨"t", none, ⟨0, 0, by decide, by decide, by decide, by decide⟩,
      ⟨60, 0, by decide, by decide, by decide, by decide⟩, by decide⟩
    let p := time w false w.lower w.upper
    let body : Text := "<ogc:PropertyIsEqualTo><ogc:PropertyName>NAME</ogc:PropertyName>" ++
      "<ogc:Literal>&lt;ogc:FeatureId fid=&apos;1&apos;/&gt;</ogc:Literal>" ++
      "</ogc:PropertyIsEqualTo>"
    sentFilter {} r (some (.predicate p)) = some (document (element "And" (body ++ p))) := by
  intro node r w p body
  have hwindow : ((some w).mapM fun w => (Dialect.filterMarkup.grammar {}).timePart? w false) =
      some (some (.predicate p)) := rfl
  have hsole : r.soleIds = [] := rfl
  have hfilter : (compileQuery .filterMarkup {} r).filter = some (document body) := by
    decide +kernel
  obtain ⟨body', -, p', -, hbody, -, hp, -, hsent, -⟩ :=
    ((sentFilter_isDocument hwindow).2 hsole).2 _ hfilter w rfl
  have hsame : body' = body := by rw [← content_document body', ← hbody, content_document]
  obtain rfl : p = p' := TimePart.predicate.inj (Option.some.inj hp)
  rw [hsent, hsame]

/-- A feature id that holds the stand-in of a parenthesis is sent with the parenthesis. -/
theorem sentFilter_alters_id :
    let r : Resolution :=
      ⟨"reefs", [], [], [⟨"F", ⟨[.ids [[Quotation.shieldedOpen]]]⟩, .and⟩], none, []⟩
    sentFilter {} r none = some (document (featureId "(")) ∧
      ¬ ∃ body, sentFilter {} r none = some (document body) ∧
        Spells body (r.soleIds.map idTree) := by
  intro r
  have hsent : sentFilter {} r none = some (document (featureId "(")) := by decide
  refine ⟨hsent, ?_⟩
  rintro ⟨body, hbody, hspells⟩
  have hsame : body = featureId "(" := by
    rw [← content_document body, ← Option.some.inj (hsent.symm.trans hbody), content_document]
  have hparen : Spells (featureId "(") [idTree "("] := by
    have hids := spells_ids ["("]
    rwa [show writer.ids ["("] = featureId "(" from List.append_nil _] at hids
  rw [hsame] at hspells
  have htree := List.cons.inj (hspells.unique hparen)
  have hattributes := (Tree.element.inj htree.1).2.1
  exact absurd hattributes (by decide)

end FilterMarkup

end MapQuery
