import MapQuery.Text.Percent

/-!
# Request parameters

Parameters of a request by their keys, in the order in which the keys were first set. Setting a key
again changes its value where it stands.
-/

set_option autoImplicit false

namespace MapQuery

/-- Parameters with different keys. -/
structure Parameters where
  pairs : List (Text × Text)
  nodup : (pairs.map Prod.fst).Nodup
  deriving DecidableEq

namespace Parameters

theorem nodup_keys_nil : (([] : List (Text × Text)).map Prod.fst).Nodup := List.Pairwise.nil

def empty : Parameters := ⟨[], nodup_keys_nil⟩

def get? (p : Parameters) (key : Text) : Option Text := p.pairs.lookup key

/-- Pairs in which a key has a value, in its old place if it had one. -/
def setPair (key value : Text) : List (Text × Text) → List (Text × Text)
  | [] => [(key, value)]
  | (k, v) :: rest => if k = key then (key, value) :: rest else (k, v) :: setPair key value rest

theorem keys_setPair (key value : Text) (pairs : List (Text × Text)) :
    (setPair key value pairs).map Prod.fst =
      if key ∈ pairs.map Prod.fst then pairs.map Prod.fst else pairs.map Prod.fst ++ [key] := by
  induction pairs with
  | nil => simp [setPair]
  | cons p rest ih =>
    obtain ⟨k, v⟩ := p
    by_cases h : k = key
    · simp [setPair, h]
    · by_cases hm : key ∈ rest.map Prod.fst
      · simp [setPair, h, ih, hm]
      · simp [setPair, h, ih, hm, Ne.symm h]

def set (key value : Text) (p : Parameters) : Parameters :=
  ⟨setPair key value p.pairs, by
    rw [keys_setPair]
    split
    · exact p.nodup
    · next h =>
      rw [List.nodup_append]
      refine ⟨p.nodup, by simp, fun a ha b hb => ?_⟩
      rw [List.mem_singleton.1 hb]
      exact fun hab => h (hab ▸ ha)⟩

theorem lookup_pair_cons (key k v : Text) (rest : List (Text × Text)) :
    ((k, v) :: rest).lookup key = if key = k then some v else rest.lookup key := by
  rw [List.lookup_cons]
  by_cases h : key = k
  · simp [h]
  · have hne : (key == k) = false := by simpa using h
    simp [h, hne]

theorem lookup_setPair (key key' value : Text) (pairs : List (Text × Text)) :
    (setPair key value pairs).lookup key' =
      if key' = key then some value else pairs.lookup key' := by
  induction pairs with
  | nil => exact lookup_pair_cons key' key value []
  | cons p rest ih =>
    obtain ⟨k, v⟩ := p
    by_cases hk : k = key
    · subst hk
      by_cases h : key' = k <;> simp [setPair, lookup_pair_cons, h]
    · by_cases h : key' = k
      · subst h
        simp [setPair, hk]
      · simp [setPair, lookup_pair_cons, hk, ih, h]

@[simp] theorem get?_set_self (p : Parameters) (key value : Text) :
    (p.set key value).get? key = some value := by
  simp [get?, set, lookup_setPair]

theorem get?_set_of_ne (p : Parameters) {key key' : Text} (h : key' ≠ key) (value : Text) :
    (p.set key value).get? key' = p.get? key' := by
  simp [get?, set, lookup_setPair, h]

def remove (key : Text) (p : Parameters) : Parameters :=
  ⟨p.pairs.filter fun q => q.1 != key, p.nodup.sublist (List.filter_sublist.map Prod.fst)⟩

/-- The parameters with the given pairs set one after another. -/
def ofPairs (pairs : List (Text × Text)) : Parameters :=
  pairs.foldl (fun p q => p.set q.1 q.2) empty

def queryString (p : Parameters) : Text :=
  Text.joined "&" (p.pairs.map fun q => Percent.encode q.1 ++ "=" ++ Percent.encode q.2)

def lines (p : Parameters) : Text := p.pairs.flatMap fun q => q.1 ++ "=" ++ q.2 ++ "\n"

end Parameters
end MapQuery
