import Mathlib.Data.List.Basic
import MapQuery.Proofs.Filter.Reloading
import MapQuery.Proofs.Json.Reading
import MapQuery.Proofs.Workspace.Announcements
import MapQuery.Workspace.Document

/-!
# Saving and loading

Content that came from records is read back from its own records, up to what the stored form of
filters loses. Edits keep it so, as long as what they put in came from records too.
-/

set_option autoImplicit false

namespace MapQuery

open Json (Source Value)

/-- What is wrong with a tree that was unreadable and so was saved as null. -/
def Misfit.ofUnreadable : Misfit := .kind .null .sequence

/-! ## What records can hold -/

namespace Selector

/-- Whether a selector is read back from its text. -/
def IsReadable (s : Selector) : Prop := ofText? s.text = some s

theorem isReadable_of_ofText? {t : Text} {s : Selector} (h : ofText? t = some s) :
    s.IsReadable := by
  simp only [ofText?] at h
  split at h
  · cases h
  · next hempty =>
    split at h
    · obtain rfl := Option.some.inj h
      exact (by decide : ofText? wildcard = some .any)
    · next hwildcard =>
      obtain rfl := Option.some.inj h
      simp [IsReadable, ofText?, text, hempty, hwildcard]

end Selector

/-- Whether the selectors of an entry are read back from their texts. -/
structure Entry.IsReadable (e : Entry) : Prop where
  layer : e.layer.IsReadable
  area : ∀ s ∈ e.area, s.IsReadable
  filter : ∀ s ∈ e.filter, s.IsReadable

theorem Entry.IsReadable.toggled {e : Entry} (h : e.IsReadable) : e.toggled.IsReadable :=
  ⟨h.layer, h.area, h.filter⟩

namespace NamedFilter

/-- A filter as it comes back from its record. -/
def reloaded (f : NamedFilter) : NamedFilter :=
  { f with
    body := match f.body with
      | .ok filter => .ok filter.reloaded
      | .error _ => .error .ofUnreadable }

/-- Whether a filter has a title where it has an id, and a tree that is read back. -/
structure IsReadable (f : NamedFilter) : Prop where
  title : f.title = [] → f.id = []
  body : ∀ filter, f.body = .ok filter → filter.IsComplete

end NamedFilter

namespace EntryRecord

theorem isReadable_of_entry? {r : EntryRecord} {e : Entry} (h : r.entry? = some e) :
    e.IsReadable := by
  have hbind {negated : Option Bool} {f : Bool → Option Entry} (h : negated.bind f = some e) :
      ∃ b, f b = some e :=
    let ⟨b, _, hb⟩ := Option.bind_eq_some_iff.1 h
    ⟨b, hb⟩
  unfold entry? at h
  split at h
  all_goals
    obtain ⟨negated, h⟩ := hbind h
    cases negated with
    | true => simp at h
    | false =>
      simp only [Bool.false_eq_true, if_false, Option.bind_eq_bind, Option.bind_eq_some_iff] at h
      obtain ⟨layer, hlayer, includesArea, -, conjunction, -, h⟩ := h
      obtain rfl := Option.some.inj h
      exact ⟨Selector.isReadable_of_ofText? hlayer, fun s hs => Selector.isReadable_of_ofText? hs,
        fun s hs => Selector.isReadable_of_ofText? hs⟩

theorem ofText?_selectorText {s : Option Selector} (h : ∀ own ∈ s, own.IsReadable) :
    Selector.ofText? (selectorText s) = s := by
  cases s with
  | none => rfl
  | some own => exact h own rfl

theorem truth?_spelled (b : Bool) : (Flag.spelled b).truth? = some b := by
  cases b <;> decide

/-- An entry is read back from its record. -/
theorem entry?_ofEntry {e : Entry} (h : e.IsReadable) : entry? (ofEntry e) = some e := by
  obtain ⟨layer, area, filter, includesArea, group⟩ := e
  have hlayer : Selector.ofText? layer.text = some layer := h.layer
  have harea := ofText?_selectorText h.area
  have hfilter := ofText?_selectorText h.filter
  have hgroup : Connective.ofFlag (group == .and) = group := by cases group <;> rfl
  simp [ofEntry, entry?, hlayer, harea, hfilter, truth?_spelled, hgroup]

end EntryRecord

namespace FilterRecord

theorem isReadable_named (r : FilterRecord) : r.named.IsReadable := by
  constructor
  · intro h
    simp only [named] at h ⊢
    split at h
    · exact h
    · next hne => simp [h] at hne
  · intro filter h
    exact Filter.isComplete_of_ofValue h

/-- A filter is read back from its record, as far as the record keeps it. -/
theorem named_ofNamed {f : NamedFilter} (h : f.IsReadable) : (ofNamed f).named = f.reloaded := by
  have htitle : (ofNamed f).named.title = f.title := by
    change (if f.title.isEmpty then f.id else f.title) = f.title
    split
    · next hempty =>
      have hnil := List.isEmpty_iff.1 hempty
      rw [hnil]
      exact h.title hnil
    · rfl
  have hbody : (ofNamed f).named.body = f.reloaded.body := by
    simp only [named, ofNamed, NamedFilter.reloaded]
    cases hfilter : f.body with
    | ok filter => exact Filter.ofValue_toValue (h.body filter hfilter)
    | error misfit => rfl
  calc (ofNamed f).named
      = ⟨f.id, (ofNamed f).named.title, f.description, f.kind, f.enabled, f.isDefault,
          (ofNamed f).named.body⟩ := rfl
    _ = f.reloaded := by
      rw [htitle, hbody]
      rfl

/-- What comes back is saved as it was. -/
theorem ofNamed_reloaded (f : NamedFilter) : ofNamed f.reloaded = ofNamed f := by
  obtain ⟨id, title, description, kind, enabled, isDefault, body⟩ := f
  cases body with
  | error misfit => rfl
  | ok filter => simp only [ofNamed, NamedFilter.reloaded, filter.toValue_reloaded]

end FilterRecord

/-! ## Content -/

namespace Catalog

variable {α : Type} [Keyed α]

/-- Changes every item; what changes is not its id. -/
def map (f : α → α) (h : ∀ a, Keyed.key (f a) = Keyed.key a) (c : Catalog α) : Catalog α :=
  ⟨c.items.map f, by
    rw [List.pairwise_map]
    simpa only [h] using c.sorted⟩

theorem find?_map (f : α → α) (h : ∀ a, Keyed.key (f a) = Keyed.key a) (c : Catalog α)
    (id : Text) : (c.map f h).find? id = (c.find? id).map f := by
  simp only [find?, map, List.find?_map, Function.comp_def, h]

end Catalog

namespace Content

/-- Content as it comes back from its document. -/
def reloaded (c : Content) : Content :=
  { c with filters := c.filters.map NamedFilter.reloaded fun _ => rfl }

/-- Whether the entries and filters of a workspace are read back from their records. -/
structure IsReadable (c : Content) : Prop where
  filters : ∀ f ∈ c.filters.items, f.IsReadable
  entries : ∀ e ∈ c.entries, e.IsReadable

end Content

namespace Document

theorem isReadable_content (d : Document) : d.content.IsReadable := by
  constructor
  · intro f hf
    have hitems (records : List FilterRecord) (start : Catalog NamedFilter) :
        (records.foldl (fun c r => c.insert r.named) start).items =
          (records.map FilterRecord.named).foldl (fun acc a => Catalog.insertInto a acc)
            start.items := by
      induction records generalizing start with
      | nil => rfl
      | cons r rest ih => exact ih (start.insert r.named)
    simp only [content, hitems] at hf
    rcases Catalog.mem_foldl_insertInto hf with hf | hf
    · obtain ⟨r, -, rfl⟩ := List.mem_map.1 hf
      exact r.isReadable_named
    · cases hf
  · intro e he
    obtain ⟨r, -, hr⟩ := List.mem_filterMap.1 he
    exact EntryRecord.isReadable_of_entry? hr

/-- Content is read back from its document, as far as the document keeps it. -/
theorem content_ofContent {c : Content} (h : c.IsReadable) :
    (ofContent c).content = c.reloaded := by
  have hfilters : c.filters.items.map (FilterRecord.named ∘ FilterRecord.ofNamed) =
      c.reloaded.filters.items :=
    List.map_congr_left fun f hf => FilterRecord.named_ofNamed (h.filters f hf)
  have hentries : ∀ e ∈ c.entries, EntryRecord.entry? (EntryRecord.ofEntry e) = some e :=
    fun e he => EntryRecord.entry?_ofEntry (h.entries e he)
  have hread : (c.entries.map EntryRecord.ofEntry).filterMap EntryRecord.entry? = c.entries := by
    rw [List.filterMap_map]
    exact (List.filterMap_congr hentries).trans List.filterMap_some
  have hinserted := Catalog.foldl_insert_items c.reloaded.filters
  rw [← hfilters, List.foldl_map] at hinserted
  simp only [content, ofContent, List.foldl_map, Catalog.foldl_insert_items, hread]
  exact congrArg (Content.mk c.areas · c.entries) hinserted

/-- What comes back is saved as it was. -/
theorem ofContent_reloaded (c : Content) : ofContent c.reloaded = ofContent c := by
  have hrecords : c.filters.items.map (FilterRecord.ofNamed ∘ NamedFilter.reloaded) =
      c.filters.items.map FilterRecord.ofNamed :=
    List.map_congr_left fun f _ => FilterRecord.ofNamed_reloaded f
  simp only [ofContent, Content.reloaded, Catalog.map, List.map_map, hrecords]

end Document

/-! ## Edits -/

/-- Whether what an edit puts in comes from a record. -/
def Edit.IsStored : Edit → Prop
  | .putFilter f => ∃ r : FilterRecord, r.named = f
  | .addEntry e => ∃ r : EntryRecord, r.entry? = some e
  | _ => True

namespace Content

theorem mem_or_of_mem_replace {x e e' : Entry} {entries : List Entry}
    (h : x ∈ entries.replace e e') : x ∈ entries ∨ x = e' ∧ e ∈ entries := by
  induction entries with
  | nil => exact .inl h
  | cons e₁ rest ih =>
    rw [List.replace_cons] at h
    split at h
    · next heq =>
      obtain rfl : e = e₁ := by simpa using heq
      rcases List.mem_cons.1 h with rfl | h
      · exact .inr ⟨rfl, List.mem_cons_self⟩
      · exact .inl (List.mem_cons_of_mem _ h)
    · rcases List.mem_cons.1 h with rfl | h
      · exact .inl List.mem_cons_self
      · exact (ih h).imp (List.mem_cons_of_mem _) (.imp_right (List.mem_cons_of_mem _))

theorem isReadable_edit {c : Content} (h : c.IsReadable) {e : Edit} (he : e.IsStored) :
    (c.edit e).IsReadable := by
  cases e with
  | putArea area => exact ⟨h.filters, h.entries⟩
  | dropArea id => exact ⟨h.filters, h.entries⟩
  | showArea id shown => exact ⟨h.filters, h.entries⟩
  | putFilter f =>
    obtain ⟨r, rfl⟩ := he
    refine ⟨fun g hg => ?_, h.entries⟩
    rcases Catalog.mem_insertInto hg with rfl | hg
    · exact r.isReadable_named
    · exact h.filters g hg
  | dropFilter id => exact ⟨fun g hg => h.filters g (List.mem_filter.1 hg).1, h.entries⟩
  | enableFilter id enabled =>
    refine ⟨fun g hg => ?_, h.entries⟩
    obtain ⟨f, hf, rfl⟩ := List.mem_map.1 hg
    have hreadable := h.filters f hf
    split
    · exact ⟨hreadable.title, hreadable.body⟩
    · exact hreadable
  | addEntry e =>
    obtain ⟨r, hr⟩ := he
    refine ⟨h.filters, fun e' he' => ?_⟩
    rcases List.mem_append.1 he' with he' | he'
    · exact h.entries e' he'
    · obtain rfl := List.mem_singleton.1 he'
      exact EntryRecord.isReadable_of_entry? hr
  | dropEntry e => exact ⟨h.filters, fun e' he' => h.entries e' (List.mem_of_mem_erase he')⟩
  | toggleEntry e =>
    refine ⟨h.filters, fun e' he' => ?_⟩
    rcases mem_or_of_mem_replace he' with he' | ⟨rfl, he⟩
    · exact h.entries e' he'
    · exact (h.entries e he).toggled
  | dropLayer id => exact ⟨h.filters, fun e' he' => h.entries e' (List.mem_filter.1 he').1⟩

theorem isReadable_editAll {edits : List Edit} (hedits : ∀ e ∈ edits, e.IsStored) {c : Content}
    (h : c.IsReadable) : (c.editAll edits).IsReadable := by
  induction edits generalizing c with
  | nil => exact h
  | cons e rest ih =>
    exact ih (fun e' he' => hedits e' (List.mem_cons_of_mem _ he'))
      (isReadable_edit h (hedits e List.mem_cons_self))

end Content

/-! ## Reading the stored form -/

theorem Json.Source.ofItems_eq_map (items : List Value) : ofItems items = items.map ofValue := by
  induction items with
  | nil => rfl
  | cons v rest ih => simp [ofItems, ih]

/-- A list is read back where each of its items is. -/
theorem Json.Source.list_ofValue {α : Type} {reader : Json.Reader α} {f : α → Value} {l : List α}
    (h : ∀ a ∈ l, reader (ofValue (f a)) = .ok a) :
    list reader (ofValue (.array (l.map f))) = .ok l := by
  have hread : (l.map (ofValue ∘ f)).mapM reader = .ok (l.map id) := mapM_map_eq_ok h
  simp only [ofValue, list, ofItems_eq_map, List.map_map, hread, List.map_id]
  rfl

namespace Shape

theorem readPolygon_ofValue (p : Polygon Float) :
    readPolygon (Source.ofValue (polygonValue p)) = .ok p :=
  Source.list_ofValue fun _ _ => Source.list_ofValue fun _ _ => rfl

theorem read_object (kind : Kind) {coordinates : Source} {s : Shape Float} (budget : Nat)
    (h : readCoordinates kind coordinates = .ok s) :
    read budget (.object [(.ok "type", .string (.ok kind.name)), (.ok "coordinates", coordinates)]
      none) = .ok s := by
  have hkind : (Progress.nothing).readKind (.string (.ok kind.name)) = .ok (.ofKind kind) := by
    cases kind <;> rfl
  have hcoordinates : (Progress.ofKind kind).readCoordinates budget coordinates =
      .ok (.whole s) := congrArg (Except.map Progress.whole) h
  have hne : ("coordinates" : Text) ≠ "type" := by decide
  simp only [read, readMembers, bind, Except.bind, if_true, hkind, if_neg hne, hcoordinates,
    Source.ending]

theorem read_toValue (s : Shape Float) (budget : Nat) :
    read budget (Source.ofValue s.toValue) = .ok s := by
  cases s with
  | polygon rings =>
    exact read_object .polygon budget
      (congrArg (Except.map _) (readPolygon_ofValue rings))
  | multiPolygon polygons =>
    exact read_object .multiPolygon budget (congrArg (Except.map _)
      (Source.list_ofValue fun p _ => readPolygon_ofValue p))

end Shape

theorem Area.read_toValue (a : Area) (budget : Nat) :
    read budget (Source.ofValue a.toValue) = .ok a :=
  Source.record_object
    ((Source.members_cons rfl rfl rfl).trans <|
      (Source.members_cons rfl rfl (congrArg (Except.map _) (a.shape.read_toValue budget))).trans <|
      (Source.members_cons rfl rfl rfl).trans rfl) rfl

theorem EntryRecord.read_toValue (r : EntryRecord) (budget : Nat) :
    read budget (Source.ofValue r.toValue) = .ok r := by
  rcases r with ⟨layer, area, filter, a | a, b | b, - | n | n⟩ <;> rfl

theorem FilterRecord.read_toValue {r : FilterRecord} {budget : Nat}
    (h : (Source.ofValue r.filter).value budget = .ok r.filter) :
    read budget (Source.ofValue r.toValue) = .ok r :=
  Source.record_object
    ((Source.members_cons rfl rfl rfl).trans <| (Source.members_cons rfl rfl rfl).trans <|
      (Source.members_cons rfl rfl rfl).trans <| (Source.members_cons rfl rfl rfl).trans <|
      (Source.members_cons rfl rfl rfl).trans <| (Source.members_cons rfl rfl rfl).trans <|
      (Source.members_cons rfl rfl (congrArg (Except.map _) h)).trans rfl) rfl

namespace Document

/-- A document whose trees are nested within the limits is read back. -/
theorem read_toValue {d : Document}
    (h : ∀ r ∈ d.filters, (Source.ofValue r.filter).value (Source.depthLimit - 3) = .ok r.filter) :
    read (Source.ofValue d.toValue) = .ok d := by
  have hareas := Source.list_ofValue (l := d.areas)
    fun a _ => a.read_toValue (Source.depthLimit - 3 - 1)
  have hfilters := Source.list_ofValue (l := d.filters)
    fun r hr => FilterRecord.read_toValue (h r hr)
  have hentries := Source.list_ofValue (l := d.entries)
    fun r _ => r.read_toValue (Source.depthLimit - 3)
  exact Source.record_object
    ((Source.members_cons rfl rfl (congrArg (Except.map _) hareas)).trans <|
      (Source.members_cons rfl rfl (congrArg (Except.map _) hfilters)).trans <|
      (Source.members_cons rfl rfl (congrArg (Except.map _) hentries)).trans rfl) rfl

/-- A filter stands inside the document, a list and a record. -/
theorem depth_filter_le {d : Document} {r : FilterRecord} (hr : r ∈ d.filters) :
    r.filter.depth + 3 ≤ d.toValue.depth := by
  have hfilter : r.filter.depth < r.toValue.depth :=
    Value.depth_lt_object (m := ("filter", r.filter)) (by simp)
  have hrecord : r.toValue.depth < (Value.array (d.filters.map FilterRecord.toValue)).depth :=
    Value.depth_lt_array (List.mem_map_of_mem hr)
  have hlist : (Value.array (d.filters.map FilterRecord.toValue)).depth < d.toValue.depth :=
    Value.depth_lt_object (m := ("filters", .array (d.filters.map FilterRecord.toValue))) (by simp)
  omega

/-- The text of a document is read back. -/
theorem ofText?_compact {c : Content}
    (hnumbers : ∀ n ∈ (ofContent c).toValue.numbers, n.ReadsBack)
    (hdepth : (ofContent c).toValue.depth ≤ Source.depthLimit) :
    ofText? (ofContent c).toValue.compact = .ok (ofContent c) := by
  refine (Json.readWhole_compact read hnumbers).trans (read_toValue fun r hr => ?_)
  have hfilter := depth_filter_le hr
  have hbudget : r.filter.depth ≤ Source.depthLimit - 3 := by omega
  obtain ⟨f, -, rfl⟩ := List.mem_map.1 hr
  obtain ⟨id, title, description, kind, enabled, isDefault, body⟩ := f
  cases body with
  | ok filter => exact Source.value_ofValue_normal hbudget
  | error misfit => rfl

end Document

end MapQuery
