import Mathlib.Data.List.Induction
import MapQuery.Proofs.Text.Cutting
import MapQuery.Proofs.Text.Percent
import MapQuery.Proofs.Workspace.Firsts
import MapQuery.Request.Parameters

/-!
# Bindings

Whatever is done with parameters, they are those of the bindings that were not undone since: a key
has its place from the first of them and its value from the last. Their query string denotes exactly
their pairs.
-/

set_option autoImplicit false

namespace MapQuery

/-- What can be done with parameters. -/
inductive ParameterCall where
  | set (key value : Text)
  | remove (key : Text)
  /-- Starts anew with the given pairs, set one after another. -/
  | collect (pairs : List (Text × Text))

namespace ParameterCall

/-- The keys that a call binds and their values. -/
def bindings : ParameterCall → List (Text × Text)
  | .set key value => [(key, value)]
  | .remove _ => []
  | .collect pairs => pairs

/-- Whether a call leaves nothing of the earlier bindings of a key. -/
def undoes (key : Text) : ParameterCall → Bool
  | .set _ _ => false
  | .remove key' => key' == key
  | .collect _ => true

/-- The bindings that no later call undoes, in their order. -/
def standing : List ParameterCall → List (Text × Text)
  | [] => []
  | c :: rest => c.bindings.filter (fun q => !rest.any (undoes q.1)) ++ standing rest

theorem standing_concat (calls : List ParameterCall) (c : ParameterCall) :
    standing (calls ++ [c]) = (standing calls).filter (fun q => !c.undoes q.1) ++ c.bindings := by
  induction calls with
  | nil => simp [standing]
  | cons d rest ih =>
    simp only [List.cons_append, standing, ih, List.filter_append, List.filter_filter,
      List.append_assoc, List.any_append, List.any_cons, List.any_nil, Bool.or_false, Bool.not_or]
    congr 2
    funext q
    exact Bool.and_comm _ _

end ParameterCall

namespace Parameters

open ParameterCall

theorem eq_of_pairs {p q : Parameters} (h : p.pairs = q.pairs) : p = q := by
  cases p
  cases q
  cases h
  rfl

/-- The pairs of other keys. -/
def others (key : Text) (pairs : List (Text × Text)) : List (Text × Text) :=
  pairs.filter fun q => q.1 != key

/-! ## Pairs set one after another -/

theorem ofPairs_concat (pairs : List (Text × Text)) (q : Text × Text) :
    ofPairs (pairs ++ [q]) = (ofPairs pairs).set q.1 q.2 := by
  rw [ofPairs, List.foldl_append]
  rfl

theorem others_setPair (key key' value : Text) (pairs : List (Text × Text)) :
    others key (setPair key' value pairs) =
      if key' = key then others key pairs else setPair key' value (others key pairs) := by
  induction pairs with
  | nil => by_cases h : key' = key <;> simp [others, setPair, h]
  | cons q rest ih =>
    obtain ⟨k, v⟩ := q
    unfold others at ih ⊢
    by_cases hk : k = key'
    · subst hk
      by_cases h : k = key <;> simp [setPair, h]
    · by_cases h : key' = key
      · subst h
        simpa [setPair, hk] using ih
      · by_cases hkey : k = key
        · subst hkey
          simpa [setPair, hk, h] using ih
        · simpa [setPair, hk, hkey, h] using ih

theorem ofPairs_others (key : Text) (pairs : List (Text × Text)) :
    ofPairs (others key pairs) = (ofPairs pairs).remove key := by
  induction pairs using List.reverseRecOn with
  | nil => rfl
  | append_singleton pairs q ih =>
    have hremove : (ofPairs (pairs ++ [q])).remove key =
        if q.1 = key then (ofPairs pairs).remove key
        else ((ofPairs pairs).remove key).set q.1 q.2 := by
      have hothers := others_setPair key q.1 q.2 (ofPairs pairs).pairs
      rw [ofPairs_concat]
      split
      · next h => exact eq_of_pairs (hothers.trans (if_pos h))
      · next h => exact eq_of_pairs (hothers.trans (if_neg h))
    have hothers : others key (pairs ++ [q]) =
        if q.1 = key then others key pairs else others key pairs ++ [q] := by
      by_cases h : q.1 = key <;> simp [others, h]
    rw [hremove, hothers, ← ih]
    split
    · rfl
    · exact ofPairs_concat (others key pairs) q

theorem keys_ofPairs (pairs : List (Text × Text)) :
    (ofPairs pairs).pairs.map Prod.fst = (distinctBy Prod.fst pairs).map Prod.fst := by
  induction pairs using List.reverseRecOn with
  | nil => rfl
  | append_singleton pairs q ih =>
    have hset : (ofPairs (pairs ++ [q])).pairs.map Prod.fst =
        if q.1 ∈ pairs.map Prod.fst then (ofPairs pairs).pairs.map Prod.fst
        else (ofPairs pairs).pairs.map Prod.fst ++ [q.1] := by
      have hkeys := keys_setPair q.1 q.2 (ofPairs pairs).pairs
      rw [ofPairs_concat]
      refine hkeys.trans ?_
      rw [ih]
      simp only [mem_map_distinctBy]
    rw [hset, ih, distinctBy_append]
    by_cases h : q.1 ∈ pairs.map Prod.fst
    · simp [distinctBy, h]
    · simp [distinctBy, h]

theorem get?_ofPairs (pairs : List (Text × Text)) (key : Text) :
    (ofPairs pairs).get? key = (pairs.filter (·.1 == key)).getLast?.map Prod.snd := by
  induction pairs using List.reverseRecOn with
  | nil => rfl
  | append_singleton pairs q ih =>
    rw [ofPairs_concat, List.filter_append]
    by_cases h : q.1 = key
    · subst h
      simp
    · rw [get?_set_of_ne _ (Ne.symm h), ih]
      simp [h]

/-! ## Calls -/

def called (p : Parameters) : ParameterCall → Parameters
  | .set key value => p.set key value
  | .remove key => p.remove key
  | .collect pairs => ofPairs pairs

/-- Parameters are those of the bindings that stand. -/
theorem foldl_called (calls : List ParameterCall) :
    calls.foldl called empty = ofPairs (standing calls) := by
  induction calls using List.reverseRecOn with
  | nil => rfl
  | append_singleton calls c ih =>
    rw [List.foldl_append, ih, standing_concat]
    cases c with
    | set key value =>
      have hnone : (standing calls).filter (fun q => !undoes q.1 (.set key value)) =
          standing calls := List.filter_eq_self.2 fun _ _ => rfl
      rw [hnone]
      exact (ofPairs_concat (standing calls) (key, value)).symm
    | remove key =>
      have hothers : (standing calls).filter (fun q => !undoes q.1 (.remove key)) =
          others key (standing calls) := by
        refine List.filter_congr fun q _ => ?_
        rw [undoes, bne, Bool.beq_comm]
      rw [hothers, bindings, List.append_nil, ofPairs_others]
      rfl
    | collect pairs =>
      have hall : (standing calls).filter (fun q => !undoes q.1 (.collect pairs)) = [] :=
        List.filter_eq_nil_iff.2 fun _ _ => Bool.false_ne_true
      rw [hall]
      rfl

theorem others_set (p : Parameters) (key value : Text) :
    others key (p.set key value).pairs = others key p.pairs :=
  (others_setPair key key value p.pairs).trans (if_pos rfl)

theorem others_remove (p : Parameters) (key : Text) :
    others key (p.remove key).pairs = others key p.pairs := by
  change others key (others key p.pairs) = _
  simp only [others, List.filter_filter, Bool.and_self]

/-! ## Query strings -/

/-- The key and the value on the two sides of the first equals sign. -/
def pair? : Text → Option (Text × Text) := Text.sides? '=' Percent.decode?

/-- The pairs that a query string denotes. -/
def pairsOf? (query : Text) : Option (List (Text × Text)) := (Text.pieces '&' query).mapM pair?

def pairText (q : Text × Text) : Text := Percent.encode q.1 ++ "=" ++ Percent.encode q.2

theorem pair?_pairText (q : Text × Text) : pair? (pairText q) = some q :=
  Text.sides?_append (Percent.not_mem_encode (by decide) (by decide) q.1)
    (Percent.decode?_encode q.1) (Percent.decode?_encode q.2)

theorem pairsOf?_queryString (p : Parameters) : pairsOf? p.queryString = some p.pairs := by
  have hpieces : Text.pieces '&' p.queryString = p.pairs.map pairText := by
    refine Text.pieces_joined ?_ ?_
    · intro t ht
      obtain ⟨q, -, rfl⟩ := List.mem_map.1 ht
      have hand : ∀ u, '&' ∉ Percent.encode u := Percent.not_mem_encode (by decide) (by decide)
      simp [hand]
    · intro t ht
      obtain ⟨q, -, rfl⟩ := List.mem_map.1 ht
      simp
  rw [pairsOf?, hpieces, mapM_map_eq_some fun q _ => pair?_pairText q, List.map_id']

example : pairsOf? "=&a%26b=%C3%A9%3D%25" = some [([], []), ("a&b", "é=%")] := by decide +kernel

/-- After any calls keys are unique, a key has the value of the last binding that stands, the keys
are in the order in which the bindings that stand first named them, a call leaves the pairs of other
keys as they were, and the query string denotes the pairs. -/
theorem calls_decide (calls : List ParameterCall) :
    let p := calls.foldl called empty
    (p.pairs.map Prod.fst).Nodup ∧
      (∀ key, p.get? key = ((standing calls).filter (·.1 == key)).getLast?.map Prod.snd) ∧
      p.pairs.map Prod.fst = (distinctBy Prod.fst (standing calls)).map Prod.fst ∧
      (∀ key value, others key (p.set key value).pairs = others key p.pairs ∧
        others key (p.remove key).pairs = others key p.pairs) ∧
      pairsOf? p.queryString = some p.pairs := by
  intro p
  have hp : p = ofPairs (standing calls) := foldl_called calls
  refine ⟨p.nodup, fun key => ?_, ?_,
    fun key value => ⟨p.others_set key value, p.others_remove key⟩, pairsOf?_queryString p⟩
  · rw [hp]
    exact get?_ofPairs (standing calls) key
  · rw [hp]
    exact keys_ofPairs (standing calls)

end Parameters
end MapQuery
