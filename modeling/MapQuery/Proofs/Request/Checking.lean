import MapQuery.Proofs.Filter.Checking
import MapQuery.Proofs.Request.Accounting

/-!
# Checked queries

Where the columns of a data source are known, every column that the trees of a compiled query name
is one of them and may be used. How other columns would be written makes no difference to the query.
-/

set_option autoImplicit false

namespace MapQuery

namespace Writer

/-- Whether two writers write everything alike but comparisons of other columns. -/
structure AgreesOn (w v : Writer) (allowed : Text → Prop) : Prop where
  join : v.join = w.join
  negate : v.negate = w.negate
  ids : v.ids = w.ids
  nullCheck : ∀ column, allowed column → ∀ negated, v.nullCheck negated column =
    w.nullCheck negated column
  relate : ∀ column, allowed column → ∀ r l, v.relate r column l = w.relate r column l
  like : ∀ column, allowed column → ∀ negated l style, v.like negated column l style =
    w.like negated column l style
  between : ∀ column, allowed column → ∀ lower upper, v.between column lower upper =
    w.between column lower upper

namespace AgreesOn

variable {w v : Writer} {allowed : Text → Prop} (h : w.AgreesOn v allowed)
include h

theorem joinParts (op : Connective) (parts : List Text) :
    v.joinParts op parts = w.joinParts op parts := by
  simp only [Writer.joinParts, h.join]

theorem comparison {c : Comparison} (hc : allowed c.column) : v.comparison c = w.comparison c := by
  obtain ⟨operator, column, literal, pattern⟩ := c
  cases operator with
  | isNull => exact h.nullCheck column hc false
  | isNotNull => exact h.nullCheck column hc true
  | relation r =>
    cases literal with
    | none => rfl
    | some l => exact h.relate column hc r l
  | like =>
    cases literal with
    | none => rfl
    | some l => exact h.like column hc false l pattern
  | notLike =>
    cases literal with
    | none => rfl
    | some l => exact h.like column hc true l pattern

theorem node {n : Node} (hn : ∀ part : Node, part.IsPart n → ∀ name, part.column? = some name →
    allowed name) : v.node n = w.node n := by
  induction n using Node.induct with
  | group op children ih =>
    have hchildren : v.nodes children = w.nodes children := by
      rw [nodes_eq_map, nodes_eq_map]
      apply List.map_congr_left
      intro child hchild
      exact ih child hchild fun part hpart => hn part (.child hchild hpart)
    rw [Writer.node, Writer.node, hchildren, h.joinParts]
  | not child ih =>
    rw [Writer.node, Writer.node, ih fun part hpart => hn part (.negated hpart), h.negate]
  | compare c => exact h.comparison (hn _ (.self _) c.column rfl)
  | between column lower upper => exact h.between column (hn _ (.self _) column rfl) lower upper
  | ids list => rw [Writer.node, Writer.node, h.ids]
  | malformed why => rfl

theorem nodes {f : Filter} (hf : ∀ part, f.HasPart part → ∀ name, part.column? = some name →
    allowed name) : v.nodes f.nodes = w.nodes f.nodes := by
  rw [nodes_eq_map, nodes_eq_map]
  apply List.map_congr_left
  intro n hn
  exact h.node fun part hpart => hf part ⟨n, hn, hpart⟩

end AgreesOn
end Writer

theorem firstFault?_of_contributing {d : Dialect} {o : CompileOptions} {r : Resolution}
    {x : ChosenFilter} (h : x ∈ r.contributing d o) {cs : Columns} (hcs : o.columns = some cs) :
    cs.firstFault? x.filter = none := by
  obtain ⟨-, htext⟩ := List.mem_filter.1 h
  cases hfault : cs.firstFault? x.filter with
  | none => rfl
  | some fault =>
    simp [ChosenFilter.contribution, ChosenFilter.refusal?, hcs, hfault] at htext

/-- A filter passes the check just if every column that any of its nodes names is found and is
neither a date nor a geometry; else the first one in the tree that is not so is told, and why. All
columns in the filters of a compiled query have passed, and no others are looked at in writing it. -/
theorem columns_checked (cs : Columns) (f : Filter) :
    (cs.firstFault? f = none ↔
      ∀ part, f.HasPart part → ∀ name, part.column? = some name → cs.Allows name) ∧
    (∀ name why, cs.firstFault? f = some (name, why) ↔ cs.RefusesFirst f name why) ∧
    ∀ (d : Dialect) (o : CompileOptions) (r : Resolution), o.columns = some cs →
      (∀ x ∈ r.contributing d o, ∀ part, x.filter.HasPart part →
        ∀ name, part.column? = some name → cs.Allows name) ∧
      ∀ v : Writer, (d.grammar o).writer.AgreesOn v cs.Allows →
        (compileQuery d o r).filter = (d.grammar o).finish (Quotation.restore (d.composite o
          (r.included.map ChosenArea.shape) (r.excluded.map ChosenArea.shape) r.group
          ((r.contributing d o).map fun x =>
            Grammar.fragment { d.grammar o with writer := v } x.group x.filter))) := by
  refine ⟨Columns.firstFault?_eq_none_iff, fun _ _ => Columns.firstFault?_eq_some_iff, ?_⟩
  intro d o r hcs
  have hallowed : ∀ x ∈ r.contributing d o, ∀ part, x.filter.HasPart part →
      ∀ name, part.column? = some name → cs.Allows name := by
    intro x hx
    exact Columns.firstFault?_eq_none_iff.1 (firstFault?_of_contributing hx hcs)
  refine ⟨hallowed, fun v hv => ?_⟩
  have hfragments : r.fragments d o = (r.contributing d o).map fun x =>
      Grammar.fragment { d.grammar o with writer := v } x.group x.filter := by
    apply List.map_congr_left
    intro x hx
    rw [Grammar.fragment, Grammar.fragment, hv.nodes (hallowed x hx)]
  rw [filter_compileQuery, hfragments]

/-- Of two columns whose names differ in case the first one counts, also below a negation that says
nothing. The filter that is not refused contributes, and the other one does not. -/
theorem columns_checked_of_reefs :
    let cs : Columns := ⟨[⟨"Name", .string⟩, ⟨"NAME", .date⟩, ⟨"seen", .date⟩]⟩
    let dead : Node := .not (.group .or [.malformed .noChild, .compare ⟨.like, "SEEN", none, {}⟩])
    let named : ChosenFilter := ⟨"F1", ⟨[.comparing .isNull "name" (.text "")]⟩, .and⟩
    let dated : ChosenFilter := ⟨"F2", ⟨[.comparing .isNull "NAME" (.text ""), dead]⟩, .or⟩
    let o : CompileOptions := { columns := some cs }
    let r : Resolution := ⟨"reefs", [], [], [named, dated], some .or, []⟩
    cs.RefusesFirst dated.filter "SEEN" .date ∧ named ∈ r.contributing .filterMarkup o ∧
      cs.Allows "name" ∧ ¬ cs.Allows "SEEN" := by
  intro cs dead named dated o r
  have hrefused := ((columns_checked cs dated.filter).2.1 "SEEN" .date).1 (by decide)
  have hnamed : named ∈ r.contributing .filterMarkup o :=
    List.mem_filter.2 ⟨List.mem_cons_self, by decide⟩
  have hallowed := ((columns_checked cs named.filter).2.2 .filterMarkup o r rfl).1 named hnamed
    (.comparing .isNull "name" (.text "")) ⟨_, List.mem_singleton_self _, .self _⟩ "name" rfl
  have ⟨_, _, hdate, _⟩ := hrefused
  exact ⟨hrefused, hnamed, hallowed, hdate.not_allows⟩

end MapQuery
