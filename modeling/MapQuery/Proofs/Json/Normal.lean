import MapQuery.Json.Decode
import MapQuery.Proofs.Workspace.Lookup

/-!
# Normal values

A value read from a text has the members of its objects sorted. A value in memory is read as its
normal form, and a normal form is read as it is.
-/

set_option autoImplicit false

namespace MapQuery.Json

instance : Keyed (Text × Value) := ⟨Prod.fst⟩

namespace Value

theorem putMember_eq_insertInto (key : Text) (value : Value) (members : List (Text × Value)) :
    putMember key value members = Catalog.insertInto (key, value) members := by
  induction members with
  | nil => rfl
  | cons m rest ih =>
    simp only [putMember, Catalog.insertInto, Keyed.key, ih, beq_iff_eq]

/-- The members of an object in order. -/
def sortMembers (members : List (Text × Value)) : List (Text × Value) :=
  members.foldl (fun acc m => Catalog.insertInto m acc) []

theorem sortedObject_eq (members : List (Text × Value)) :
    sortedObject members = .object (sortMembers members) := by
  simp only [sortedObject, putMember_eq_insertInto]
  rfl

theorem mem_sortMembers {m : Text × Value} {members : List (Text × Value)}
    (h : m ∈ sortMembers members) : m ∈ members :=
  (Catalog.mem_foldl_insertInto h).resolve_right List.not_mem_nil

theorem pairwise_sortMembers (members : List (Text × Value)) :
    (sortMembers members).Pairwise fun a b => a.1.before b.1 = true :=
  Catalog.sorted_foldl_insertInto members .nil

theorem sortMembers_eq_self {members : List (Text × Value)}
    (h : members.Pairwise fun a b => a.1.before b.1 = true) : sortMembers members = members :=
  @Catalog.foldl_insertInto _ _ [] members h

theorem normalItems_eq_map (items : List Value) : normalItems items = items.map normal := by
  induction items with
  | nil => rfl
  | cons v rest ih => simp [normalItems, ih]

theorem normalMembers_eq_map (members : List (Text × Value)) :
    normalMembers members = members.map fun m => (m.1, m.2.normal) := by
  induction members with
  | nil => rfl
  | cons m rest ih => simp [normalMembers, ih]

mutual

theorem normal_normal : ∀ v : Value, v.normal.normal = v.normal
  | .null | .bool _ | .number _ | .string _ => rfl
  | .array items => by
    simp only [normal, normalItems_eq_map, List.map_map]
    exact congrArg array (List.map_congr_left (normal_normal_of_mem_items items))
  | .object members => by
    have hfixed : ∀ m ∈ sortMembers (normalMembers members), (m.1, m.2.normal) = m := by
      intro m hm
      have hmem := mem_sortMembers hm
      rw [normalMembers_eq_map] at hmem
      obtain ⟨m', hm', rfl⟩ := List.mem_map.1 hmem
      exact congrArg _ (normal_normal_of_mem_members members m' hm')
    have hsorted : normalMembers (sortMembers (normalMembers members)) =
        sortMembers (normalMembers members) := by
      rw [normalMembers_eq_map, List.map_congr_left hfixed]
      exact List.map_id _
    simp only [normal, sortedObject_eq, hsorted]
    rw [sortMembers_eq_self (pairwise_sortMembers _)]

theorem normal_normal_of_mem_items : ∀ items : List Value, ∀ v ∈ items, v.normal.normal = v.normal
  | [], _, h => by cases h
  | v :: rest, w, h => by
    rcases List.mem_cons.1 h with heq | h
    · rw [heq]
      exact normal_normal v
    · exact normal_normal_of_mem_items rest w h

theorem normal_normal_of_mem_members :
    ∀ members : List (Text × Value), ∀ m ∈ members, m.2.normal.normal = m.2.normal
  | [], _, h => by cases h
  | (k, v) :: rest, m, h => by
    rcases List.mem_cons.1 h with heq | h
    · rw [heq]
      exact normal_normal v
    · exact normal_normal_of_mem_members rest m h

end

mutual

/-- How deep arrays and objects are nested in a value. -/
def depth : Value → Nat
  | .array items => depthOfItems items + 1
  | .object members => depthOfMembers members + 1
  | .null | .bool _ | .number _ | .string _ => 0

def depthOfItems : List Value → Nat
  | [] => 0
  | v :: rest => max v.depth (depthOfItems rest)

def depthOfMembers : List (Text × Value) → Nat
  | [] => 0
  | (_, v) :: rest => max v.depth (depthOfMembers rest)

end

theorem depth_lt_array {v : Value} {items : List Value} (h : v ∈ items) :
    v.depth < (array items).depth := by
  induction items with
  | nil => cases h
  | cons w rest ih =>
    rcases List.mem_cons.1 h with rfl | h
    · exact Nat.lt_succ_of_le (Nat.le_max_left _ _)
    · exact Nat.lt_of_lt_of_le (ih h) (Nat.succ_le_succ (Nat.le_max_right _ _))

theorem depth_lt_object {m : Text × Value} {members : List (Text × Value)} (h : m ∈ members) :
    m.2.depth < (object members).depth := by
  induction members with
  | nil => cases h
  | cons m' rest ih =>
    rcases List.mem_cons.1 h with rfl | h
    · exact Nat.lt_succ_of_le (Nat.le_max_left _ _)
    · exact Nat.lt_of_lt_of_le (ih h) (Nat.succ_le_succ (Nat.le_max_right _ _))

end Value

namespace Source

open Value (depth depthOfItems depthOfMembers normalItems normalMembers)

mutual

/-- A value in memory is read as its normal form. -/
theorem value_ofValue : ∀ (v : Value) (budget : Nat), v.depth ≤ budget →
    (ofValue v).value budget = .ok v.normal
  | .null, _, _ | .bool _, _, _ | .number _, _, _ | .string _, _, _ => rfl
  | .array items, budget + 1, h => by
    have hitems := itemValues_ofItems items budget (Nat.le_of_succ_le_succ h)
    simp only [ofValue, value, hitems]
    rfl
  | .object members, budget + 1, h => by
    have hmembers := memberValues_ofMembers members budget (Nat.le_of_succ_le_succ h)
    simp only [ofValue, value, hmembers]
    rfl
  | .array _, 0, h | .object _, 0, h => by cases h

theorem itemValues_ofItems : ∀ (items : List Value) (budget : Nat), depthOfItems items ≤ budget →
    itemValues budget (ofItems items) = .ok (normalItems items)
  | [], _, _ => rfl
  | v :: rest, budget, h => by
    have hv := value_ofValue v budget (Nat.le_trans (Nat.le_max_left _ _) h)
    have hrest := itemValues_ofItems rest budget (Nat.le_trans (Nat.le_max_right _ _) h)
    simp only [ofItems, itemValues, hv, hrest]
    rfl

theorem memberValues_ofMembers : ∀ (members : List (Text × Value)) (budget : Nat),
    depthOfMembers members ≤ budget →
    memberValues budget (ofMembers members) = .ok (normalMembers members)
  | [], _, _ => rfl
  | (k, v) :: rest, budget, h => by
    have hv := value_ofValue v budget (Nat.le_trans (Nat.le_max_left _ _) h)
    have hrest := memberValues_ofMembers rest budget (Nat.le_trans (Nat.le_max_right _ _) h)
    simp only [ofMembers, memberValues, hv, hrest]
    rfl

end

/-- A normal value is read as it is. -/
theorem value_ofValue_normal {v : Value} {budget : Nat} (h : v.normal.depth ≤ budget) :
    (ofValue v.normal).value budget = .ok v.normal := by
  rw [value_ofValue _ _ h, Value.normal_normal]

/-! ## Records -/

section

variable {ρ : Type} {fields : List (Field ρ)} {f : Field ρ} {k : Text} {s : Source}
  {rest : List (Except Fault Text × Source)} {seen : List Text} {r r' : ρ}

/-- A member that is a field of the record. -/
theorem members_cons (hfind : fields.find? (·.name == k) = some f) (hseen : seen.contains k = false)
    (hread : f.read s r = .ok r') :
    members fields ((.ok k, s) :: rest) seen r = members fields rest (k :: seen) r' := by
  simp only [members, bind, Except.bind, hfind, hseen, hread, Bool.false_eq_true, if_false]

/-- An object of members that are all read, among them those that may not be missing. -/
theorem record_object {entries : List (Except Fault Text × Source)} {seen : List Text}
    {blank : ρ} (hread : members fields entries [] blank = .ok (r, seen))
    (hall : (fields.all fun f => f.optional || seen.contains f.name) = true) :
    record fields blank (.object entries none) = .ok r := by
  simp only [record, bind, Except.bind, hread, ending, hall, if_true]

end

end Source
end MapQuery.Json
