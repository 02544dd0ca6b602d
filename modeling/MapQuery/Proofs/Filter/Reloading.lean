import MapQuery.Dialect.Grammar
import MapQuery.Proofs.Filter.Parts
import MapQuery.Proofs.Json.Normal
import MapQuery.Proofs.Json.Reading

/-!
# Filters read again

The stored form of a filter keeps all that is compiled from it. It loses the reasons why nodes are
malformed, and the special characters of comparisons that match no pattern.
-/

set_option autoImplicit false

namespace MapQuery

open Json (Value)

namespace Node

mutual

/-- A node as it comes back from its stored form. -/
def reloaded : Node → Node
  | .group op children => .group op (reloadedList children)
  | .not child => .not child.reloaded
  | .compare c => .compare { c with pattern := if c.operator.isLike then c.pattern else {} }
  | .between column lower upper => .between column lower upper
  | .ids list => .ids list
  | .malformed _ => .malformed .unknownElement

def reloadedList : List Node → List Node
  | [] => []
  | n :: rest => n.reloaded :: reloadedList rest

end

mutual

/-- Whether the comparisons of a node have what a stored node needs to be one: a column, and a
literal where their operator takes one. -/
def IsComplete : Node → Prop
  | .group _ children => AreComplete children
  | .not child => child.IsComplete
  | .compare c => Text.blank c.column = false ∧ c.literal.isSome = c.operator.takesLiteral
  | .between column _ _ => Text.blank column = false
  | .ids _ | .malformed _ => True

def AreComplete : List Node → Prop
  | [] => True
  | n :: rest => n.IsComplete ∧ AreComplete rest

end

theorem reloadedList_eq_map (nodes : List Node) : reloadedList nodes = nodes.map reloaded := by
  induction nodes with
  | nil => rfl
  | cons n rest ih => simp [reloadedList, ih]

theorem areComplete_iff {nodes : List Node} : AreComplete nodes ↔ ∀ n ∈ nodes, n.IsComplete := by
  induction nodes with
  | nil => simp [AreComplete]
  | cons n rest ih => simp [AreComplete, ih]

theorem toValues_eq_map (nodes : List Node) : toValues nodes = nodes.map toValue := by
  induction nodes with
  | nil => rfl
  | cons n rest ih => simp [toValues, ih]

end Node

namespace Filter

def reloaded (f : Filter) : Filter := ⟨f.nodes.map Node.reloaded⟩

def IsComplete (f : Filter) : Prop := ∀ n ∈ f.nodes, n.IsComplete

end Filter

/-! ## What is read is complete -/

section

variable {ε α β : Type} {x : Except ε α} {b : β}

theorem exists_of_map_eq_ok {f : α → β} (h : x.map f = .ok b) : ∃ a, x = .ok a ∧ f a = b := by
  cases x with
  | error e => cases h
  | ok a => exact ⟨a, rfl, Except.ok.inj h⟩

theorem exists_of_bind_eq_ok {f : α → Except ε β} (h : x >>= f = .ok b) :
    ∃ a, x = .ok a ∧ f a = .ok b := by
  cases x with
  | error e => cases h
  | ok a => exact ⟨a, rfl, h⟩

theorem exists_of_mapM_eq_ok {f : α → Except ε β} {l : List α} {l' : List β}
    (h : l.mapM f = .ok l') {b : β} (hb : b ∈ l') : ∃ a ∈ l, f a = .ok b := by
  induction l generalizing l' with
  | nil =>
    obtain rfl : [] = l' := Except.ok.inj h
    cases hb
  | cons a rest ih =>
    rw [List.mapM_cons] at h
    obtain ⟨b', hb', h⟩ := exists_of_bind_eq_ok h
    obtain ⟨rest', hrest', h⟩ := exists_of_bind_eq_ok h
    obtain rfl : b' :: rest' = l' := Except.ok.inj h
    rcases List.mem_cons.1 hb with rfl | hb
    · exact ⟨a, List.mem_cons_self, hb'⟩
    · obtain ⟨x, hx, hfx⟩ := ih hrest' hb
      exact ⟨x, List.mem_cons_of_mem a hx, hfx⟩

/-- Reading every item back. -/
theorem mapM_map_eq_ok {γ : Type} {f : α → Except ε β} {g : γ → α} {k : γ → β} {l : List γ}
    (h : ∀ c ∈ l, f (g c) = .ok (k c)) : (l.map g).mapM f = .ok (l.map k) := by
  induction l with
  | nil => rfl
  | cons c rest ih =>
    have hrest := ih fun c hc => h c (List.mem_cons_of_mem _ hc)
    simp only [List.map_cons, List.mapM_cons, h c List.mem_cons_self, hrest]
    rfl

end

def NodeFields.IsComplete (f : NodeFields) : Prop :=
  (∀ n ∈ f.children, n.IsComplete) ∧ ∀ n ∈ f.child, n.IsComplete

/-- Whether whatever is read is complete. -/
def NodeReading.IsComplete (r : NodeReading) : Prop :=
  (∀ n, r.node = .ok n → n.IsComplete) ∧ ∀ nodes, r.nodes = .ok nodes → ∀ n ∈ nodes, n.IsComplete

/-- Whether a field leaves the nodes among the fields complete. -/
def NodeField.Keeps (field : NodeField) : Prop :=
  ∀ r f f', r.IsComplete → f.IsComplete → field.read r f = .ok f' → f'.IsComplete

theorem keeps_optionalField {α : Type} {name : Text} {read : Value → Except Misfit α}
    {put : Option α → NodeFields → NodeFields}
    (hput : ∀ a f, (put a f).children = f.children ∧ (put a f).child = f.child) :
    (optionalField name read put).Keeps := by
  intro r f f' _ hf h
  obtain ⟨a, -, rfl⟩ := exists_of_map_eq_ok h
  rw [NodeFields.IsComplete, (hput a f).1, (hput a f).2]
  exact hf

namespace Tag

theorem keeps_of_mem_fields (tag : Tag) : ∀ field ∈ tag.fields, field.Keeps := by
  intro field hfield
  cases tag with
  | group op =>
    obtain rfl := List.mem_singleton.1 hfield
    intro r f f' hr hf h
    obtain ⟨nodes, hnodes, rfl⟩ := exists_of_map_eq_ok h
    exact ⟨hr.2 nodes hnodes, hf.2⟩
  | not =>
    obtain rfl := List.mem_singleton.1 hfield
    intro r f f' hr hf h
    simp only at h
    split at h
    · obtain rfl := Except.ok.inj h
      exact ⟨hf.1, by simp⟩
    · obtain ⟨n, hn, rfl⟩ := exists_of_map_eq_ok h
      refine ⟨hf.1, ?_⟩
      rintro m hm
      obtain rfl := Option.some.inj hm
      exact hr.1 n hn
  | compare op =>
    simp only [fields, List.mem_cons, List.not_mem_nil, or_false] at hfield
    rcases hfield with rfl | rfl | rfl | rfl | rfl
    all_goals exact keeps_optionalField fun _ _ => ⟨rfl, rfl⟩
  | between =>
    simp only [fields, List.mem_cons, List.not_mem_nil, or_false] at hfield
    rcases hfield with rfl | rfl | rfl
    all_goals exact keeps_optionalField fun _ _ => ⟨rfl, rfl⟩
  | ids =>
    obtain rfl := List.mem_singleton.1 hfield
    intro r f f' _ hf h
    obtain ⟨list, -, rfl⟩ := exists_of_map_eq_ok h
    exact hf
  | unknown => cases hfield

theorem isComplete_readNamed {fields : List NodeField} (hfields : ∀ field ∈ fields, field.Keeps)
    {members : List (Text × NodeReading)} (hmembers : ∀ m ∈ members, m.2.IsComplete)
    {f f' : NodeFields} (hf : f.IsComplete) (h : readNamed fields members f = .ok f') :
    f'.IsComplete := by
  induction members generalizing f with
  | nil =>
    obtain rfl := Except.ok.inj h
    exact hf
  | cons m rest ih =>
    have hrest := fun m hm => hmembers m (List.mem_cons_of_mem _ hm)
    simp only [readNamed] at h
    split at h
    · exact ih hrest hf h
    · next field hfind =>
      obtain ⟨f₁, hread, h⟩ := exists_of_bind_eq_ok h
      have hkeeps := hfields field (List.mem_of_find?_eq_some hfind)
      exact ih hrest (hkeeps _ _ _ (hmembers m List.mem_cons_self) hf hread) h

theorem isComplete_readInOrder {fields : List NodeField} (hfields : ∀ field ∈ fields, field.Keeps)
    {readings : List NodeReading} (hreadings : ∀ r ∈ readings, r.IsComplete)
    {f f' : NodeFields} (hf : f.IsComplete) (h : readInOrder fields readings f = .ok f') :
    f'.IsComplete := by
  induction fields generalizing f readings with
  | nil =>
    obtain rfl : f = f' := Except.ok.inj h
    exact hf
  | cons field fields ih =>
    cases readings with
    | nil =>
      obtain rfl : f = f' := Except.ok.inj h
      exact hf
    | cons r rest =>
      obtain ⟨f₁, hread, h⟩ := exists_of_bind_eq_ok h
      have hkept := hfields field List.mem_cons_self _ _ _ (hreadings r List.mem_cons_self) hf hread
      exact ih (fun x hx => hfields x (List.mem_cons_of_mem _ hx))
        (fun x hx => hreadings x (List.mem_cons_of_mem _ hx)) hkept h

theorem blank_of_column? {f : NodeFields} {column : Text} (h : column? f = some column) :
    Text.blank column = false := by
  have := (Option.filter_eq_some_iff.1 h).2
  simpa using this

/-- Complete fields make complete nodes. -/
theorem isComplete_node {f : NodeFields} (hf : f.IsComplete) (tag : Tag) :
    (tag.node f).IsComplete := by
  cases tag with
  | group op => exact Node.areComplete_iff.2 hf.1
  | not =>
    simp only [node]
    split
    · next child hchild => exact hf.2 child hchild
    · trivial
  | compare op =>
    simp only [node, comparison]
    split
    · trivial
    · next column hcolumn =>
      have hblank := blank_of_column? hcolumn
      split
      · next htakes =>
        split
        · trivial
        · exact ⟨hblank, htakes.symm⟩
      · next htakes =>
        refine ⟨hblank, ?_⟩
        simpa using htakes
  | between =>
    simp only [node]
    split
    · next hcolumn _ _ => exact blank_of_column? hcolumn
    · trivial
  | ids => trivial
  | unknown => trivial

end Tag

namespace Node

theorem isComplete_empty : NodeFields.IsComplete {} := ⟨by simp, by simp⟩

theorem isComplete_ofMembers {members : List (Text × NodeReading)}
    (hmembers : ∀ m ∈ members, m.2.IsComplete) {n : Node}
    (h : NodeReading.ofMembers members = .ok n) : n.IsComplete := by
  unfold NodeReading.ofMembers at h
  split at h
  · cases h
  · obtain ⟨tag, -, h⟩ := exists_of_bind_eq_ok h
    obtain ⟨f, hf, h⟩ := exists_of_bind_eq_ok h
    obtain rfl := Except.ok.inj h
    exact Tag.isComplete_node (Tag.isComplete_readNamed (Tag.keeps_of_mem_fields tag) hmembers
      isComplete_empty hf) tag

theorem isComplete_ofItems {items : List NodeReading} (hitems : ∀ r ∈ items, r.IsComplete)
    {n : Node} (h : NodeReading.ofItems items = .ok n) : n.IsComplete := by
  cases items with
  | nil => cases h
  | cons r rest =>
    obtain ⟨tag, -, h⟩ := exists_of_bind_eq_ok h
    obtain ⟨f, hf, h⟩ := exists_of_bind_eq_ok h
    split at h
    · cases h
    · obtain rfl := Except.ok.inj h
      exact Tag.isComplete_node (Tag.isComplete_readInOrder (Tag.keeps_of_mem_fields tag)
        (fun x hx => hitems x (List.mem_cons_of_mem r hx)) isComplete_empty hf) tag

mutual

/-- Whatever a value is read as is complete. -/
theorem isComplete_reading : ∀ v : Value, (reading v).IsComplete
  | .null | .bool _ | .number _ | .string _ => by
    constructor
    · intro _ h
      cases h
    · intro _ h
      cases h
  | .object members =>
    ⟨fun _ h => isComplete_ofMembers (isComplete_readingsOfMembers members) h,
      fun _ h => nomatch h⟩
  | .array items => by
    have hitems := isComplete_readingsOfItems items
    refine ⟨fun _ h => isComplete_ofItems hitems h, fun nodes h n hn => ?_⟩
    obtain ⟨r, hr, hnode⟩ := exists_of_mapM_eq_ok h hn
    exact (hitems r hr).1 n hnode

theorem isComplete_readingsOfItems :
    ∀ items : List Value, ∀ r ∈ readingsOfItems items, r.IsComplete
  | [], _, h => by cases h
  | v :: rest, r, h => by
    rcases List.mem_cons.1 h with heq | h
    · rw [heq]
      exact isComplete_reading v
    · exact isComplete_readingsOfItems rest r h

theorem isComplete_readingsOfMembers :
    ∀ members : List (Text × Value), ∀ m ∈ readingsOfMembers members, m.2.IsComplete
  | [], _, h => by cases h
  | (k, v) :: rest, m, h => by
    rcases List.mem_cons.1 h with heq | h
    · rw [heq]
      exact isComplete_reading v
    · exact isComplete_readingsOfMembers rest m h

end

end Node

theorem Filter.isComplete_of_ofValue {v : Value} {f : Filter} (h : ofValue v = .ok f) :
    f.IsComplete := by
  have hnode {v : Value} {n : Node} (h : Node.ofValue v = .ok n) : n.IsComplete := by
    obtain ⟨-, -, h⟩ := exists_of_bind_eq_ok h
    exact (Node.isComplete_reading v).1 n h
  unfold ofValue at h
  split at h
  · obtain ⟨n, hn, h⟩ := exists_of_bind_eq_ok h
    obtain rfl := Except.ok.inj h
    intro m hm
    obtain rfl := List.mem_singleton.1 hm
    exact hnode hn
  · obtain ⟨nodes, hnodes, h⟩ := exists_of_bind_eq_ok h
    obtain rfl := Except.ok.inj h
    intro n hn
    obtain ⟨v, -, hv⟩ := exists_of_mapM_eq_ok hnodes hn
    exact hnode hv
  · cases h

/-! ## What is stored is read back -/

theorem Tag.ofName_name (tag : Tag) : ofName tag.name = tag := by
  cases tag with
  | group op => cases op <;> decide
  | compare op =>
    cases op with
    | relation r => cases r <;> decide
    | _ => decide
  | _ => decide

section

variable {fields : List NodeField} {field : NodeField} {name : Text} {r : NodeReading}
  {rest : List (Text × NodeReading)} {f f' : NodeFields}

theorem Tag.readNamed_field (hfind : fields.find? (·.name == name) = some field)
    (hread : field.read r f = .ok f') :
    readNamed fields ((name, r) :: rest) f = readNamed fields rest f' := by
  simp only [readNamed, hfind, hread, bind, Except.bind]

theorem Tag.readNamed_other (hfind : fields.find? (·.name == name) = none) :
    readNamed fields ((name, r) :: rest) f = readNamed fields rest f := by
  simp only [readNamed, hfind]

end

theorem readStrings_map (ids : List Text) :
    readStrings (Value.array (ids.map .string)).normal = .ok ids := by
  have hitems : Value.normalItems (ids.map .string) = ids.map .string := by
    rw [Value.normalItems_eq_map, List.map_map]
    rfl
  have hread : (ids.map Value.string).mapM readString = .ok (ids.map id) :=
    mapM_map_eq_ok fun _ _ => rfl
  rw [Value.normal, hitems]
  exact hread.trans (congrArg Except.ok (List.map_id ids))

namespace Node

theorem lookup_readingsOfMembers (key : Text) (members : List (Text × Value)) :
    (readingsOfMembers members).lookup key = (members.lookup key).map reading := by
  induction members with
  | nil => rfl
  | cons m rest ih =>
    obtain ⟨k, v⟩ := m
    cases h : key == k with
    | true => simp only [readingsOfMembers, List.lookup_cons, h, Option.map_some]
    | false => simp only [readingsOfMembers, List.lookup_cons, h, ih]

/-- An object is the node of its tag and its fields. -/
theorem reading_object (tag : Tag) {members : List (Text × Value)} {f : NodeFields}
    (htag : members.lookup tagKey = some (.string tag.name))
    (hread : Tag.readNamed tag.fields (readingsOfMembers members) {} = .ok f) :
    (reading (.object members)).node = .ok (tag.node f) := by
  have hlookup := lookup_readingsOfMembers tagKey members
  rw [htag, Option.map_some] at hlookup
  have hvalue : Tag.ofValue (.string tag.name) = .ok tag :=
    congrArg Except.ok (Tag.ofName_name tag)
  simp only [reading, NodeReading.ofMembers, hlookup, hvalue, bind, Except.bind, hread]

theorem reading_value (v : Value) : (reading v).value = v := by
  cases v <;> rfl

theorem toValue_normal_ne_null (n : Node) : n.toValue.normal ≠ .null := by
  cases n <;> exact nofun

theorem read_literal (name : Text) (put : Option Literal → NodeFields → NodeFields) (l : Literal)
    (f : NodeFields) :
    (optionalField name readLiteral put).read (reading l.toValue.normal) f = .ok (put l f) := by
  cases l <;> rfl

theorem read_child {child n : Node} (f : NodeFields)
    (h : (reading child.toValue.normal).node = .ok n) :
    ∀ field ∈ Tag.not.fields, field.read (reading child.toValue.normal) f =
      .ok { f with child := n } := by
  intro field hfield
  obtain rfl := List.mem_singleton.1 hfield
  simp only
  split
  · next hnull =>
    rw [reading_value] at hnull
    exact absurd hnull (toValue_normal_ne_null child)
  · rw [h]
    rfl

theorem column?_eq_some {f : NodeFields} {column : Text} (hcolumn : f.column = some column)
    (hblank : Text.blank column = false) : Tag.column? f = some column := by
  simp [Tag.column?, hcolumn, hblank]

/-- Complete fields of a comparison make the comparison. -/
theorem node_compare (op : Operator) {f : NodeFields} {column : Text}
    (hcolumn : f.column = some column) (hblank : Text.blank column = false)
    (hliteral : f.literal.isSome = op.takesLiteral) :
    (Tag.compare op).node f = .compare ⟨op, column, f.literal,
      ⟨f.wild.getD '*', f.single.getD '.', f.escape.getD '!'⟩⟩ := by
  simp only [Tag.node, Tag.comparison, column?_eq_some hcolumn hblank, ← hliteral]
  cases f.literal <;> rfl

theorem isLike_takesLiteral {op : Operator} (h : op.isLike = true) : op.takesLiteral = true := by
  cases op with
  | isNull => exact h
  | isNotNull => exact h
  | _ => rfl

theorem reading_compare (c : Comparison) (hblank : Text.blank c.column = false)
    (hliteral : c.literal.isSome = c.operator.takesLiteral) :
    (reading (compare c).toValue.normal).node = .ok (compare c).reloaded := by
  obtain ⟨op, column, literal, pattern⟩ := c
  have hnode (wild single escape : Option Char) := node_compare op
    (f := {
      column := column, literal := literal, wild := wild, single := single, escape := escape })
    rfl hblank hliteral
  -- Objects with different members are sorted one by one.
  cases hlike : op.isLike with
  | true =>
    obtain ⟨l, rfl⟩ := Option.isSome_iff_exists.1 (hliteral.trans (isLike_takesLiteral hlike))
    have hread := hnode pattern.wild pattern.single pattern.escape
    simp only [toValue, Comparison.members, reloaded, hlike, if_true]
    refine (reading_object (.compare op) rfl ?_).trans (congrArg Except.ok hread)
    exact (Tag.readNamed_field rfl (read_literal ..)).trans
      ((Tag.readNamed_field rfl rfl).trans
      ((Tag.readNamed_field rfl rfl).trans
      ((Tag.readNamed_field rfl rfl).trans
      ((Tag.readNamed_other rfl).trans
      (Tag.readNamed_field rfl rfl)))))
  | false =>
    have hread := hnode none none none
    simp only [toValue, Comparison.members, reloaded, hlike, Bool.false_eq_true, if_false]
    cases literal with
    | none =>
      refine (reading_object (.compare op) rfl ?_).trans (congrArg Except.ok hread)
      exact (Tag.readNamed_field rfl rfl).trans (Tag.readNamed_other rfl)
    | some l =>
      refine (reading_object (.compare op) rfl ?_).trans (congrArg Except.ok hread)
      exact (Tag.readNamed_field rfl (read_literal ..)).trans
        ((Tag.readNamed_field rfl rfl).trans (Tag.readNamed_other rfl))

mutual

/-- A complete node is read back from its stored form, up to what the stored form loses. -/
theorem reading_toValue : ∀ n : Node, n.IsComplete →
    (reading n.toValue.normal).node = .ok n.reloaded
  | .group op children, h => by
    have hchildren := mapM_readings_toValues children h
    refine reading_object (.group op) rfl (f := { children := reloadedList children }) ?_
    exact (Tag.readNamed_field rfl (congrArg (Except.map _) hchildren)).trans
      (Tag.readNamed_other rfl)
  | .not child, h => by
    have hchild := reading_toValue child h
    refine reading_object .not rfl (f := { child := child.reloaded }) ?_
    exact (Tag.readNamed_field rfl (read_child {} hchild _ List.mem_cons_self)).trans
      (Tag.readNamed_other rfl)
  | .compare c, h => reading_compare c h.1 h.2
  | .between column lower upper, h => by
    have hnormal : (between column lower upper).toValue.normal = .object [
        ("LowerBoundary", lower.toValue.normal), ("PropertyName", .string column),
        ("UpperBoundary", upper.toValue.normal), (tagKey, .string Tag.between.name)] := rfl
    have hblank : Text.blank column = false := h
    have hcolumn := column?_eq_some (f := { column := column, lower := lower, upper := upper })
      rfl hblank
    have hnode : Tag.between.node { column := column, lower := lower, upper := upper } =
        .between column lower upper := by
      simp only [Tag.node, hcolumn]
    rw [hnormal, reloaded, ← hnode]
    refine reading_object .between rfl ?_
    exact (Tag.readNamed_field rfl (read_literal ..)).trans
      ((Tag.readNamed_field rfl rfl).trans
      ((Tag.readNamed_field rfl (read_literal ..)).trans
      (Tag.readNamed_other rfl)))
  | .ids list, _ => by
    refine reading_object .ids rfl (f := { ids := list }) ?_
    exact (Tag.readNamed_field rfl (congrArg (Except.map _) (readStrings_map list))).trans
      (Tag.readNamed_other rfl)
  | .malformed _, _ => rfl

theorem mapM_readings_toValues : ∀ nodes : List Node, AreComplete nodes →
    (readingsOfItems (Value.normalItems (toValues nodes))).mapM NodeReading.node =
      .ok (reloadedList nodes)
  | [], _ => rfl
  | n :: rest, h => by
    have hn := reading_toValue n h.1
    have hrest := mapM_readings_toValues rest h.2
    simp only [toValues, Value.normalItems, readingsOfItems, List.mapM_cons, hn, hrest]
    rfl

end

theorem namedTag_toValue (n : Node) : namedTag n.toValue.normal = .ok () := by
  cases n with
  | compare c =>
    obtain ⟨op, column, literal, pattern⟩ := c
    simp only [toValue, Comparison.members]
    cases op.isLike <;> cases literal <;> rfl
  | _ => rfl

theorem ofValue_toValue {n : Node} (h : n.IsComplete) :
    ofValue n.toValue.normal = .ok n.reloaded := by
  rw [ofValue, namedTag_toValue, reading_toValue n h]
  rfl

end Node

theorem Filter.ofValue_toValue {f : Filter} (h : f.IsComplete) :
    ofValue f.toValue.normal = .ok f.reloaded := by
  have hnormal : f.toValue.normal = .array (f.nodes.map fun n => n.toValue.normal) := by
    rw [toValue, Value.normal, Value.normalItems_eq_map, Node.toValues_eq_map, List.map_map]
    rfl
  have hread : (f.nodes.map fun n => n.toValue.normal).mapM Node.ofValue =
      .ok (f.nodes.map Node.reloaded) :=
    mapM_map_eq_ok fun n hn => Node.ofValue_toValue (h n hn)
  rw [hnormal, ofValue, hread]
  rfl

/-- The text of a value stores what the value in memory does. -/
theorem Filter.ofText?_compact {v : Value} (hnumbers : ∀ n ∈ v.numbers, n.ReadsBack)
    (hdepth : v.depth ≤ Json.Source.depthLimit) :
    ofText? v.compact = (ofValue v.normal).mapError .value := by
  have hread : Value.ofText? v.compact = .ok v.normal := by
    rw [Value.ofText?, Json.readWhole_compact _ hnumbers, Json.Source.value_ofValue v _ hdepth]
  rw [ofText?, hread]

/-! ## What the stored form keeps -/

namespace Node

theorem toValue_reloaded (n : Node) : n.reloaded.toValue = n.toValue := by
  induction n using induct with
  | group op children ih =>
    have hmap : children.map (toValue ∘ reloaded) = children.map toValue := List.map_congr_left ih
    simp only [reloaded, toValue, reloadedList_eq_map, toValues_eq_map, List.map_map, hmap]
  | not child ih => simp only [reloaded, toValue, ih]
  | compare c =>
    simp only [reloaded, toValue, Comparison.members]
    cases c.operator.isLike <;> rfl
  | _ => rfl

theorem columns_reloaded (n : Node) : n.reloaded.columns = n.columns := by
  induction n using induct with
  | group op children ih =>
    have hmap : children.map (columns ∘ reloaded) = children.map columns := List.map_congr_left ih
    simp only [reloaded, columns, reloadedList_eq_map, columnsOfList_eq_flatMap, List.flatMap_def,
      List.map_map, hmap]
  | not child ih => exact ih
  | _ => rfl

theorem selectsIds_reloaded (n : Node) : n.reloaded.selectsIds = n.selectsIds := by
  induction n using induct with
  | group op children ih =>
    have hmap : children.map (selectsIds ∘ reloaded) = children.map selectsIds :=
      List.map_congr_left ih
    have hany := congrArg (List.any · id) hmap
    simp only [List.any_map, Function.id_comp] at hany
    simpa only [reloaded, selectsIds, reloadedList_eq_map, anySelectsIds_eq_any, List.any_map]
      using hany
  | not child ih => exact ih
  | _ => rfl

/-- A malformed node stays malformed. -/
theorem malformation?_reloaded (n : Node) :
    n.reloaded.malformation? = n.malformation?.map fun _ => .unknownElement := by
  induction n using induct with
  | group op children ih =>
    have hmap : children.map (malformation? ∘ reloaded) =
        children.map (Option.map (fun _ => .unknownElement) ∘ malformation?) :=
      List.map_congr_left ih
    have hfind := congrArg (List.findSome? id) hmap
    simp only [List.findSome?_map, Function.id_comp] at hfind
    simpa only [reloaded, malformation?, reloadedList_eq_map, malformationOfList?_eq_findSome?,
      List.findSome?_map, List.map_findSome?] using hfind
  | not child ih => exact ih
  | _ => rfl

end Node

/-- The stored form keeps all that is written of a node, in every language. -/
theorem Writer.node_reloaded (w : Writer) (n : Node) : w.node n.reloaded = w.node n := by
  induction n using Node.induct with
  | group op children ih =>
    have hmap : children.map (w.node ∘ Node.reloaded) = children.map w.node :=
      List.map_congr_left ih
    simp only [Node.reloaded, node, Node.reloadedList_eq_map, nodes_eq_map, List.map_map, hmap]
  | not child ih => simp only [Node.reloaded, node, ih]
  | compare c =>
    obtain ⟨op, column, literal, pattern⟩ := c
    cases op <;> cases literal <;> rfl
  | _ => rfl

namespace Filter

variable (f : Filter)

theorem toValue_reloaded : f.reloaded.toValue = f.toValue := by
  have hmap : f.nodes.map (Node.toValue ∘ Node.reloaded) = f.nodes.map Node.toValue :=
    List.map_congr_left fun n _ => n.toValue_reloaded
  simp only [toValue, reloaded, Node.toValues_eq_map, List.map_map, hmap]

/-! The nodes of a filter are those of a group. -/

theorem columns_reloaded : f.reloaded.columns = f.columns := by
  have h := Node.columns_reloaded (.group .and f.nodes)
  rwa [Node.reloaded, Node.reloadedList_eq_map] at h

theorem selectsIds_reloaded : f.reloaded.selectsIds = f.selectsIds := by
  have h := Node.selectsIds_reloaded (.group .and f.nodes)
  rwa [Node.reloaded, Node.reloadedList_eq_map] at h

theorem malformation?_reloaded :
    f.reloaded.malformation? = f.malformation?.map fun _ => .unknownElement := by
  have h := Node.malformation?_reloaded (.group .and f.nodes)
  rwa [Node.reloaded, Node.reloadedList_eq_map] at h

theorem isIdSelection_reloaded : f.reloaded.isIdSelection = f.isIdSelection := by
  obtain ⟨_ | ⟨n, _ | ⟨m, rest⟩⟩⟩ := f
  · rfl
  · cases n <;> rfl
  · cases n <;> rfl

end Filter

theorem Grammar.fragment_reloaded (g : Grammar) (op : Connective) (f : Filter) :
    g.fragment op f.reloaded = g.fragment op f := by
  have hmap : f.nodes.map (g.writer.node ∘ Node.reloaded) = f.nodes.map g.writer.node :=
    List.map_congr_left fun n _ => g.writer.node_reloaded n
  simp only [fragment, Filter.reloaded, Writer.nodes_eq_map, List.map_map, hmap]

end MapQuery
