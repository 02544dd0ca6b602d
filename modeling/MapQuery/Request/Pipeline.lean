import MapQuery.Request.Compiled
import MapQuery.Request.Parameters

/-!
# Pipelines

A request starts from the parameters of its data source and passes through named modifiers in the
order in which their ids were first registered. A compiled query is one modifier and the time
window another.
-/

set_option autoImplicit false

namespace MapQuery

/-- A named change of request parameters. -/
structure Modifier where
  id : Text
  apply : Parameters → Parameters

namespace Modifier

def filterId : Text := "layer-filter"

def timeId : Text := "temporal"

def setting (id key value : Text) : Modifier := ⟨id, Parameters.set key value⟩

/-- Merges a predicate with what the filter parameter already holds; `alone` is its value where
that is nothing. -/
def mergeFilter (g : Grammar) (alone addition : Text) (p : Parameters) : Parameters :=
  let existing := (p.get? g.parameter).getD []
  p.set g.parameter (if existing.isEmpty then alone else g.conjoin existing addition)

/-- Applies the parameters and the filter of a compiled query. -/
def ofQuery (g : Grammar) (params : List (Text × Text)) (filter : Option Text) : Modifier where
  id := filterId
  apply p :=
    let p := params.foldl (fun p q => p.set q.1 q.2) p
    match filter with
    | none => p
    | some text => mergeFilter g text text p

def ofTime (g : Grammar) (part : TimePart) : Modifier where
  id := timeId
  apply p :=
    match part with
    | .predicate text => mergeFilter g ((g.finish text).getD []) text p
    | .parameter name value => p.set name value

end Modifier

/-- Modifiers with different ids, in the order in which they are applied. -/
structure Pipeline where
  modifiers : List Modifier
  nodup : (modifiers.map Modifier.id).Nodup

namespace Pipeline

theorem nodup_ids_nil : (([] : List Modifier).map Modifier.id).Nodup := List.Pairwise.nil

def empty : Pipeline := ⟨[], nodup_ids_nil⟩

def ids (p : Pipeline) : List Text := p.modifiers.map Modifier.id

/-- Modifiers with a further one, which takes the place of an earlier one of the same id. -/
def put (m : Modifier) : List Modifier → List Modifier
  | [] => [m]
  | n :: rest => if n.id = m.id then m :: rest else n :: put m rest

theorem ids_put (m : Modifier) (modifiers : List Modifier) :
    (put m modifiers).map Modifier.id =
      if m.id ∈ modifiers.map Modifier.id then modifiers.map Modifier.id
      else modifiers.map Modifier.id ++ [m.id] := by
  induction modifiers with
  | nil => simp [put]
  | cons n rest ih =>
    by_cases h : n.id = m.id
    · simp [put, h]
    · by_cases hm : m.id ∈ rest.map Modifier.id
      · simp [put, h, ih, hm]
      · simp [put, h, ih, hm, Ne.symm h]

/-- Registers a modifier, in the place of an earlier one of the same id. -/
def register (m : Modifier) (p : Pipeline) : Pipeline :=
  ⟨put m p.modifiers, by
    rw [ids_put]
    split
    · exact p.nodup
    · next h =>
      rw [List.nodup_append]
      refine ⟨p.nodup, by simp, fun a ha b hb => ?_⟩
      rw [List.mem_singleton.1 hb]
      exact fun hab => h (hab ▸ ha)⟩

def deregister (id : Text) (p : Pipeline) : Pipeline :=
  ⟨p.modifiers.filter fun m => m.id != id,
    p.nodup.sublist (List.filter_sublist.map Modifier.id)⟩

/-- The parameters after every modifier in order. -/
def apply (p : Pipeline) (base : Parameters) : Parameters :=
  p.modifiers.foldl (fun params m => m.apply params) base

def installQuery (g : Grammar) (params : List (Text × Text)) (filter : Option Text)
    (p : Pipeline) : Pipeline :=
  p.register (.ofQuery g params filter)

/-- Registers the modifier of a time window; without a window there is none. -/
def installTime (g : Grammar) (time : Option TimePart) (p : Pipeline) : Pipeline :=
  match time with
  | some part => p.register (.ofTime g part)
  | none => p.deregister Modifier.timeId

/-- Registers the modifiers of a query and its time window. -/
def install (g : Grammar) (params : List (Text × Text)) (filter : Option Text)
    (time : Option TimePart) (p : Pipeline) : Pipeline :=
  (p.installQuery g params filter).installTime g time

/-- Taking out a modifier keeps the order of the others. -/
theorem ids_deregister (id : Text) (p : Pipeline) :
    (p.deregister id).ids = p.ids.filter (· != id) := by
  simp [ids, deregister, List.filter_map, Function.comp_def]

end Pipeline
end MapQuery
