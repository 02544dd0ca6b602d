import MapQuery.Dialect.Basic
import MapQuery.Proofs.Filter.Reloading

/-!
# Stored filters as fixpoints

Storing a filter that was read, and reading it again, comes to rest at once: what the stored form
loses is lost the first time, and nothing that is compiled or asked of the filter depends on it.
-/

set_option autoImplicit false

namespace MapQuery

open Json (Value)

namespace Node

theorem children_reloaded (n : Node) : n.reloaded.children = n.children.map reloaded := by
  cases n with
  | group op children => exact reloadedList_eq_map children
  | _ => rfl

theorem at?_reloaded (n : Node) (path : List Nat) :
    n.reloaded.at? path = (n.at? path).map reloaded := by
  induction path generalizing n with
  | nil => rfl
  | cons i rest ih =>
    rw [at?, at?, children_reloaded, List.getElem?_map]
    cases n.children[i]? with
    | none => rfl
    | some child => exact ih child

theorem malformed_reloaded_iff {n : Node} :
    (∃ why, n.reloaded = .malformed why) ↔ ∃ why, n = .malformed why := by
  cases n with
  | malformed why => exact iff_of_true ⟨.unknownElement, rfl⟩ ⟨why, rfl⟩
  | _ => exact iff_of_false (fun ⟨_, h⟩ => nomatch h) fun ⟨_, h⟩ => nomatch h

end Node

namespace Filter

variable {f : Filter}

theorem at?_reloaded (f : Filter) (path : List Nat) :
    f.reloaded.at? path = (f.at? path).map Node.reloaded := by
  cases path with
  | nil => rfl
  | cons i rest =>
    rw [at?, at?, reloaded, List.getElem?_map]
    cases f.nodes[i]? with
    | none => rfl
    | some n => exact n.at?_reloaded rest

theorem malformed_at_reloaded_iff {path : List Nat} :
    (∃ why, f.reloaded.at? path = some (.malformed why)) ↔
      ∃ why, f.at? path = some (.malformed why) := by
  rw [at?_reloaded]
  cases f.at? path with
  | none => exact iff_of_false (fun ⟨_, h⟩ => nomatch h) fun ⟨_, h⟩ => nomatch h
  | some n =>
    simp only [Option.map_some, Option.some.injEq]
    exact Node.malformed_reloaded_iff

/-- A filter that is read from any value, stored and read again differs from what it was in what
`reloaded` changes and in nothing else. It is stored as before, every language writes it as before,
and all that is asked of it has the same answer. -/
theorem reloads_of_ofValue {v : Value} (h : ofValue v = .ok f) :
    ofValue f.toValue.normal = .ok f.reloaded ∧ f.reloaded.toValue = f.toValue ∧
      (∀ (d : Dialect) (o : CompileOptions) (op : Connective),
        (d.grammar o).filterText op f.reloaded = (d.grammar o).filterText op f) ∧
      f.reloaded.columns = f.columns ∧ f.reloaded.selectsIds = f.selectsIds ∧
      f.reloaded.isIdSelection = f.isIdSelection ∧
      ∀ path, (∃ why, f.reloaded.at? path = some (.malformed why)) ↔
        ∃ why, f.at? path = some (.malformed why) := by
  refine ⟨ofValue_toValue (isComplete_of_ofValue h), f.toValue_reloaded, ?_, f.columns_reloaded,
    f.selectsIds_reloaded, f.isIdSelection_reloaded, fun _ => malformed_at_reloaded_iff⟩
  intro d o op
  rw [Grammar.filterText, Grammar.filterText, Grammar.fragment_reloaded]

/-- Nodes as objects and as an array, a null, an unknown tag, and fields that are missing or of no
use. -/
def mixedForms : Value :=
  .array [
    .object [("type", .string "Or"), ("children", .array [
      .array [.string "PropertyIsEqualTo", .string "kind", .string "reef", .string "?"],
      .object [("type", .string "PropertyIsLike"), ("PropertyName", .string "NAME"),
        ("Literal", .bool true), ("wildCard", .string "%")],
      .object [("type", .string "Not"), ("child", .null)]])],
    .object [("type", .string "Touches")],
    .object [("type", .string "PropertyIsNull"), ("Literal", .string "reef")]]

theorem reloads_of_ofValue_of_mixedForms :
    let like : Node := .compare ⟨.like, "NAME", some (.bool true), ⟨'%', '.', '!'⟩⟩
    let f : Filter := ⟨[
      .group .or [
        .compare ⟨.relation .equals, "kind", some (.text "reef"), ⟨'?', '.', '!'⟩⟩, like,
        .malformed .noChild],
      .malformed .unknownElement, .malformed (.noColumn .isNull)]⟩
    let g : Filter := ⟨[
      .group .or [
        .compare ⟨.relation .equals, "kind", some (.text "reef"), {}⟩, like,
        .malformed .unknownElement],
      .malformed .unknownElement, .malformed .unknownElement]⟩
    ofValue mixedForms = .ok f ∧ ofValue f.toValue.normal = .ok g ∧
      ∀ (d : Dialect) (o : CompileOptions) (op : Connective),
        (d.grammar o).filterText op g = (d.grammar o).filterText op f := by
  intro like f g
  have hf : ofValue mixedForms = .ok f := rfl
  obtain ⟨hread, -, htext, -⟩ := reloads_of_ofValue hf
  exact ⟨hf, hread, htext⟩

end Filter
end MapQuery
