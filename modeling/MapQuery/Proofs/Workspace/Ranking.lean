import MapQuery.Proofs.Workspace.Selection
import Mathlib.Data.List.Sort

/-!
# Ranks of what entries select

The lists of a resolution are in order of the first entry that asks for an item, and in order of ids
where an entry asks for several. Nothing else can be a resolution: what is asked for and that order
leave no choice.
-/

set_option autoImplicit false

namespace MapQuery

section

variable {α : Type} [Keyed α]

/-- Whether the first entry that fits an item comes before the first that fits another, or is the
same and the id of the item comes before that of the other. -/
def RanksBefore (entries : List Entry) (fits : α → Entry → Bool) (a b : α) : Prop :=
  entries.findIdx (fits a) < entries.findIdx (fits b) ∨
    entries.findIdx (fits a) = entries.findIdx (fits b) ∧
      (Keyed.key a).before (Keyed.key b) = true

/-- The eligible items that some entry fits, ranked. -/
structure IsRanked (entries : List Entry) (fits : α → Entry → Bool) (eligible : α → Prop)
    (items : List α) : Prop where
  mem : ∀ a, a ∈ items ↔ eligible a ∧ ∃ e ∈ entries, fits a e = true
  /-- Since no item ranks before itself, none is there twice. -/
  ranked : items.Pairwise (RanksBefore entries fits)

variable {entries : List Entry} {fits : α → Entry → Bool} {eligible : α → Prop}
  {give : Entry → List α}

instance : Std.Irrefl (RanksBefore entries fits) where
  irrefl := by
    rintro a (h | ⟨-, h⟩)
    · exact Nat.lt_irrefl _ h
    · rw [Text.not_before_self] at h
      cases h

instance : Std.Antisymm (RanksBefore entries fits) where
  antisymm := by
    rintro a b (hab | ⟨hab, hkeys⟩) (hba | ⟨hba, hkeys'⟩)
    · exact absurd hab (Nat.lt_asymm hba)
    · exact absurd hba (Nat.ne_of_gt hab)
    · exact absurd hab (Nat.ne_of_gt hba)
    · have hself := Text.before_trans hkeys hkeys'
      rw [Text.not_before_self] at hself
      cases hself

theorem IsRanked.unique {items items' : List α} (h : IsRanked entries fits eligible items)
    (h' : IsRanked entries fits eligible items') : items = items' :=
  h.ranked.eq_of_mem_iff h'.ranked fun a => (h.mem a).trans (h'.mem a).symm

theorem IsRanked.filter {items : List α} (h : IsRanked entries fits eligible items)
    (keep : α → Bool) {eligible' : α → Prop}
    (hkeep : ∀ a, eligible' a ↔ eligible a ∧ keep a = true) :
    IsRanked entries fits eligible' (items.filter keep) where
  mem a := by rw [List.mem_filter, h.mem, hkeep, and_right_comm]
  ranked := h.ranked.filter keep

/-- What the entries give one after the other is ranked once repetitions are left out, if each
entry gives what it fits in order of ids. -/
theorem ranked_distinctBy_flatMap (hgive : ∀ e a, a ∈ give e ↔ eligible a ∧ fits a e = true)
    (hsorted : ∀ e, (give e).Pairwise fun a b => (Keyed.key a).before (Keyed.key b) = true) :
    (distinctBy Keyed.key (entries.flatMap give)).Pairwise (RanksBefore entries fits) := by
  induction entries with
  | nil => exact .nil
  | cons e rest ih =>
    -- What the first entry fits has rank zero, all that it leaves to the others a later one.
    have hfirst : ∀ a ∈ distinctBy Keyed.key (give e), (e :: rest).findIdx (fits a) = 0 := by
      intro a ha
      have hfits := ((hgive e a).1 (mem_of_mem_distinctBy ha)).2
      simp [List.findIdx_cons, hfits]
    have hlater : ∀ b ∈ (distinctBy Keyed.key (rest.flatMap give)).filter
        (fun b => !((give e).map Keyed.key).contains (Keyed.key b)),
        (e :: rest).findIdx (fits b) = rest.findIdx (fits b) + 1 := by
      intro b hb
      obtain ⟨hmem, hnew⟩ := List.mem_filter.1 hb
      obtain ⟨e', -, hgiven⟩ := List.mem_flatMap.1 (mem_of_mem_distinctBy hmem)
      have hfits : fits b e = false := by
        rw [Bool.eq_false_iff]
        intro hfits
        have hown : b ∈ give e := (hgive e b).2 ⟨((hgive e' b).1 hgiven).1, hfits⟩
        rw [List.contains_iff_mem.2 (List.mem_map_of_mem hown)] at hnew
        cases hnew
      simp [List.findIdx_cons, hfits]
    rw [List.flatMap_cons, distinctBy_append, List.pairwise_append]
    refine ⟨?_, ?_, ?_⟩
    · refine ((hsorted e).sublist (distinctBy_sublist _)).imp_of_mem ?_
      intro a b ha hb hkeys
      exact .inr ⟨(hfirst a ha).trans (hfirst b hb).symm, hkeys⟩
    · refine (ih.filter _).imp_of_mem ?_
      intro a b ha hb hranks
      unfold RanksBefore
      rw [hlater a ha, hlater b hb]
      exact hranks.imp Nat.succ_lt_succ (And.imp_left (congrArg Nat.succ))
    · intro a ha b hb
      left
      rw [hfirst a ha, hlater b hb]
      exact Nat.succ_pos _

theorem isRanked_distinctBy_flatMap (entries : List Entry) {applies : Entry → Bool}
    {selects : α → Entry → Bool} (hgive : ∀ e a, a ∈ give e ↔ eligible a ∧ selects a e = true)
    (hsorted : ∀ e, (give e).Pairwise fun a b => (Keyed.key a).before (Keyed.key b) = true)
    (hkey : ∀ a b, eligible a → eligible b → Keyed.key a = Keyed.key b → a = b) :
    IsRanked entries (fun a e => applies e && selects a e) eligible
      (distinctBy Keyed.key ((entries.filter applies).flatMap give)) := by
  have hgiven : ∀ e a, a ∈ (if applies e then give e else []) ↔
      eligible a ∧ (applies e && selects a e) = true := by
    intro e a
    cases applies e with
    | false => simp
    | true => simpa using hgive e a
  rw [flatMap_filter_eq]
  constructor
  · intro a
    have hmem (b : α) : b ∈ entries.flatMap (fun e => if applies e then give e else []) ↔
        eligible b ∧ ∃ e ∈ entries, (applies e && selects b e) = true := by
      simp only [List.mem_flatMap, hgiven, and_left_comm, exists_and_left]
    rw [mem_distinctBy_of_injective, hmem]
    intro b hb b' hb'
    exact hkey b b' ((hmem b).1 hb).1 ((hmem b').1 hb').1
  · apply ranked_distinctBy_flatMap hgiven
    intro e
    cases applies e with
    | false => exact .nil
    | true => exact hsorted e

end

/-- The kept ones of a list stand side by side with what a function makes of just those. -/
theorem forall₂_filter_filterMap {α β γ : Type} {R : α → γ → Prop} {f : β → α} {keep : α → Bool}
    {make : β → Option γ} {l : List β}
    (h : ∀ b ∈ l, (keep (f b) = true ∧ ∃ x, make b = some x ∧ R (f b) x) ∨
      keep (f b) = false ∧ make b = none) :
    List.Forall₂ R ((l.map f).filter keep) (l.filterMap make) := by
  induction l with
  | nil => exact .nil
  | cons b rest ih =>
    have hrest := ih fun b' hb' => h b' (List.mem_cons_of_mem b hb')
    rcases h b List.mem_cons_self with ⟨hkeep, x, hmake, hR⟩ | ⟨hkeep, hmake⟩
    · rw [List.map_cons, List.filter_cons_of_pos hkeep, List.filterMap_cons_some hmake]
      exact .cons hR hrest
    · rw [List.map_cons, List.filter_cons_of_neg (by simp [hkeep]), List.filterMap_cons_none hmake]
      exact hrest

namespace Entry

/-- Whether an entry asks for an area to include or to exclude on a layer. -/
def asksForArea (layerId : Text) (included : Bool) (a : Area) (e : Entry) : Bool :=
  e.appliesTo layerId && e.includesArea == included && e.selectsArea a

/-- Whether an entry asks for a filter on a layer. -/
def asksForFilter (layer : Layer) (f : NamedFilter) (e : Entry) : Bool :=
  e.appliesTo layer.id && e.selectsFilter layer.kind f

end Entry

namespace Content

/-- Whether a chosen filter is what a filter that can be read becomes. -/
def IsChoice (c : Content) (layer : Layer) (f : NamedFilter) (x : ChosenFilter) : Prop :=
  x.id = f.id ∧ f.body = .ok x.filter ∧
    (c.entries.find? (Entry.asksForFilter layer f)).map Entry.group = some x.group

/-- Whether an advisory tells why a filter cannot be read. -/
def IsComplaint (f : NamedFilter) (a : Advisory) : Prop :=
  ∃ misfit, f.body = .error misfit ∧ a = .malformedFilter f.id misfit.message

/-- What the resolution of a layer has to be. -/
structure Resolves (c : Content) (layer : Layer) (r : Resolution) : Prop where
  layerId : r.layerId = layer.id
  /-- The operator is that of the first entry that applies to the layer. -/
  group : r.group? = (c.entries.find? (·.appliesTo layer.id)).map Entry.group
  /-- The areas are the shown ones that an entry asks for, -/
  included : ∃ areas, IsRanked c.entries (Entry.asksForArea layer.id true)
      (fun a => a ∈ c.areas.items ∧ a.shown = true) areas ∧
    r.included = areas.map fun a => ⟨a.id, a.shape⟩
  excluded : ∃ areas, IsRanked c.entries (Entry.asksForArea layer.id false)
      (fun a => a ∈ c.areas.items ∧ a.shown = true) areas ∧
    r.excluded = areas.map fun a => ⟨a.id, a.shape⟩
  /-- and the filters are the enabled ones that can be read, each with the operator of the first
  entry that asks for it. -/
  filters : ∃ filters, IsRanked c.entries (Entry.asksForFilter layer)
      (fun f => f ∈ c.filters.items ∧ f.enabled = true ∧ ∃ body, f.body = .ok body) filters ∧
    List.Forall₂ (c.IsChoice layer) filters r.filters
  /-- Those that cannot be read are told of. -/
  advisories : ∃ filters, IsRanked c.entries (Entry.asksForFilter layer)
      (fun f => f ∈ c.filters.items ∧ f.enabled = true ∧ ∃ misfit, f.body = .error misfit)
      filters ∧
    List.Forall₂ IsComplaint filters r.advisories

variable {c : Content} {layer : Layer}

theorem pairwise_areasOf (c : Content) (e : Entry) :
    (c.areasOf e).Pairwise fun a b => a.id.before b.id = true := by
  unfold areasOf
  rcases e.area with - | - | id
  · exact .nil
  · exact c.areas.sorted.filter _
  · apply List.Pairwise.filter
    cases c.areas.find? id with
    | none => exact .nil
    | some a => exact List.pairwise_singleton _ a

theorem pairwise_filtersOf (c : Content) (kind : Text) (e : Entry) :
    (c.filtersOf kind e).Pairwise fun f g => f.id.before g.id = true := by
  unfold filtersOf
  rcases e.filter with - | - | id
  · exact .nil
  · exact c.filters.sorted.filter _
  · apply List.Pairwise.filter
    cases c.filters.find? id with
    | none => exact .nil
    | some f => exact List.pairwise_singleton _ f

theorem exists_isRanked_chosenAreas (c : Content) (layerId : Text) (included : Bool) :
    ∃ areas, IsRanked c.entries (Entry.asksForArea layerId included)
        (fun a => a ∈ c.areas.items ∧ a.shown = true) areas ∧
      c.chosenAreas (c.entriesFor layerId) included = areas.map fun a => ⟨a.id, a.shape⟩ := by
  refine ⟨_, isRanked_distinctBy_flatMap c.entries ?_ (pairwise_areasOf c) ?_, ?_⟩
  · intro e a
    rw [mem_areasOf, and_assoc]
  · intro a b ha hb
    exact Catalog.eq_of_key_eq ha.1 hb.1
  · rw [chosenAreas, entriesFor, List.filter_filter]
    simp only [Bool.and_comm]
    rfl

theorem isRanked_chosenFilters (c : Content) (layer : Layer) :
    IsRanked c.entries (Entry.asksForFilter layer)
      (fun f => f ∈ c.filters.items ∧ f.enabled = true)
      ((c.chosenFilters layer.kind (c.entriesFor layer.id)).map Prod.fst) := by
  have hgiven : (c.chosenFilters layer.kind (c.entriesFor layer.id)).map Prod.fst =
      distinctBy NamedFilter.id ((c.entriesFor layer.id).flatMap (c.filtersOf layer.kind)) := by
    rw [chosenFilters, @map_distinctBy _ _ NamedFilter.id, List.map_flatMap]
    simp [Function.comp_def]
  rw [hgiven]
  apply isRanked_distinctBy_flatMap
  · intro e f
    rw [mem_filtersOf, and_assoc]
  · exact pairwise_filtersOf c layer.kind
  · intro f g hf hg
    exact Catalog.eq_of_key_eq hf.1 hg.1

theorem groupOf?_eq (c : Content) (layer : Layer) (f : NamedFilter) :
    c.groupOf? layer f = (c.entries.find? (Entry.asksForFilter layer f)).map Entry.group := by
  rw [groupOf?, entriesFor, List.find?_filter]
  simp only [Bool.decide_and, Bool.decide_eq_true]
  rfl

theorem resolves_resolve (c : Content) (layer : Layer) : c.Resolves layer (c.resolve layer) where
  layerId := rfl
  group := by
    rw [← List.head?_filter]
    rfl
  included := exists_isRanked_chosenAreas c layer.id true
  excluded := exists_isRanked_chosenAreas c layer.id false
  filters := by
    refine ⟨_, (isRanked_chosenFilters c layer).filter (fun f => f.body.isOk) ?_,
      forall₂_filter_filterMap ?_⟩
    · intro f
      cases f.body <;> simp [Except.isOk, Except.toBool]
    · rintro ⟨f, op⟩ hf
      have hgroup := (mem_chosenFilters.1 hf).2
      rw [groupOf?_eq] at hgroup
      cases hbody : f.body with
      | ok body =>
        left
        exact ⟨rfl, _, rfl, rfl, hbody, hgroup⟩
      | error misfit =>
        right
        exact ⟨rfl, rfl⟩
  advisories := by
    refine ⟨_, (isRanked_chosenFilters c layer).filter (fun f => !f.body.isOk) ?_,
      forall₂_filter_filterMap ?_⟩
    · intro f
      cases f.body <;> simp [Except.isOk, Except.toBool]
    · rintro ⟨f, op⟩ -
      cases hbody : f.body with
      | ok body =>
        right
        exact ⟨rfl, rfl⟩
      | error misfit =>
        left
        exact ⟨rfl, _, rfl, misfit, hbody, rfl⟩

theorem rightUnique_isChoice (c : Content) (layer : Layer) :
    Relator.RightUnique (c.IsChoice layer) := by
  rintro f ⟨id, filter, op⟩ ⟨id', filter', op'⟩ ⟨hid, hbody, hgroup⟩ ⟨hid', hbody', hgroup'⟩
  obtain rfl : id = id' := hid.trans hid'.symm
  obtain rfl : filter = filter' := Except.ok.inj (hbody.symm.trans hbody')
  obtain rfl : op = op' := Option.some.inj (hgroup.symm.trans hgroup')
  rfl

theorem rightUnique_isComplaint : Relator.RightUnique IsComplaint := by
  rintro f a a' ⟨misfit, hbody, rfl⟩ ⟨misfit', hbody', rfl⟩
  rw [hbody] at hbody'
  rw [Except.error.inj hbody']

theorem Resolves.unique {r r' : Resolution} (h : c.Resolves layer r) (h' : c.Resolves layer r') :
    r = r' := by
  obtain ⟨areas, hareas, hincluded⟩ := h.included
  obtain ⟨areas', hareas', hincluded'⟩ := h'.included
  obtain rfl := hareas.unique hareas'
  obtain ⟨others, hothers, hexcluded⟩ := h.excluded
  obtain ⟨others', hothers', hexcluded'⟩ := h'.excluded
  obtain rfl := hothers.unique hothers'
  obtain ⟨readable, hreadable, hfilters⟩ := h.filters
  obtain ⟨readable', hreadable', hfilters'⟩ := h'.filters
  obtain rfl := hreadable.unique hreadable'
  have hchoices := List.right_unique_forall₂' (rightUnique_isChoice c layer) hfilters hfilters'
  obtain ⟨broken, hbroken, hadvisories⟩ := h.advisories
  obtain ⟨broken', hbroken', hadvisories'⟩ := h'.advisories
  obtain rfl := hbroken.unique hbroken'
  have hcomplaints := List.right_unique_forall₂' rightUnique_isComplaint hadvisories hadvisories'
  have hlayer := h.layerId.trans h'.layerId.symm
  have hgroup := h.group.trans h'.group.symm
  cases r
  cases r'
  rw [Resolution.mk.injEq]
  exact ⟨hlayer, hincluded.trans hincluded'.symm, hexcluded.trans hexcluded'.symm, hchoices, hgroup,
    hcomplaints⟩

/-- What is asked for, and in which order, makes the resolution of a layer. -/
theorem resolves_iff {r : Resolution} : c.Resolves layer r ↔ r = c.resolve layer := by
  constructor
  · intro h
    exact h.unique (resolves_resolve c layer)
  · rintro rfl
    exact resolves_resolve c layer

end Content
end MapQuery
