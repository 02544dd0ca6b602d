import Mathlib.Data.List.Induction
import Mathlib.Data.List.Sort
import MapQuery.Proofs.Request.Reinstallation

/-!
# Registrations

What a pipeline holds is settled by what was registered in it and taken out of it again. An id has
its place from its first registration since it was last taken out, and its modifier from the last
one. Where nothing but queries was installed only the last of them counts.
-/

set_option autoImplicit false

namespace MapQuery

/-- What becomes of the modifier of one id. -/
inductive Registration where
  | entered (m : Modifier)
  | withdrawn (id : Text)

namespace Registration

def id : Registration → Text
  | .entered m => m.id
  | .withdrawn id => id

/-- Every time the id was entered it was withdrawn later on. -/
def IsGone (history : List Registration) (id : Text) : Prop :=
  ∀ before m after, history = before ++ .entered m :: after → m.id = id → .withdrawn id ∈ after

/-- The id has been there without a break from a place in the history on, and not before that. -/
def StandsFrom (history : List Registration) (id : Text) (place : Nat) : Prop :=
  ∃ before m after, history = before ++ .entered m :: after ∧ before.length = place ∧ m.id = id ∧
    .withdrawn id ∉ after ∧ IsGone before id

/-- The modifier is the last one that was entered under its id, which was not withdrawn since. -/
def IsLatest (history : List Registration) (m : Modifier) : Prop :=
  ∃ before after, history = before ++ .entered m :: after ∧ ∀ r ∈ after, r.id ≠ m.id

def Precedes (history : List Registration) (a b : Text) : Prop :=
  ∃ i j, StandsFrom history a i ∧ StandsFrom history b j ∧ i < j

/-- The modifiers that a history leaves, in their order. -/
structure Leaves (history : List Registration) (modifiers : List Modifier) : Prop where
  mem : ∀ m, m ∈ modifiers ↔ IsLatest history m
  ordered : modifiers.Pairwise fun m n => Precedes history m.id n.id

variable {history : List Registration} {r : Registration} {m : Modifier} {id : Text} {i j : Nat}

theorem split_concat {α : Type} {list before after : List α} {a b : α} :
    list ++ [b] = before ++ a :: after ↔ before = list ∧ a = b ∧ after = [] ∨
      ∃ rest, after = rest ++ [b] ∧ list = before ++ a :: rest := by
  constructor
  · intro h
    rcases List.eq_nil_or_concat after with rfl | ⟨rest, last, rfl⟩
    · obtain ⟨rfl, hlast⟩ := List.append_inj' h rfl
      exact .inl ⟨rfl, (List.singleton_inj.1 hlast).symm, rfl⟩
    · have h' : list ++ [b] = (before ++ a :: rest) ++ [last] := by simpa using h
      obtain ⟨rfl, hlast⟩ := List.append_inj' h' rfl
      exact .inr ⟨rest, by simp [List.singleton_inj.1 hlast], rfl⟩
  · rintro (⟨rfl, rfl, rfl⟩ | ⟨rest, rfl, rfl⟩)
    · rfl
    · simp

/-! ## One more registration -/

theorem isGone_nil (id : Text) : IsGone [] id := by
  intro before m after h
  simp at h

theorem isGone_concat_withdrawn : IsGone (history ++ [.withdrawn id]) id := by
  intro before m after h hm
  rcases split_concat.1 h with ⟨-, hentered, -⟩ | ⟨rest, rfl, -⟩
  · cases hentered
  · simp

theorem IsGone.concat (h : IsGone history id) (hr : r.id ≠ id) : IsGone (history ++ [r]) id := by
  intro before m after hsplit hm
  rcases split_concat.1 hsplit with ⟨-, rfl, -⟩ | ⟨rest, rfl, hrest⟩
  · exact absurd hm hr
  · exact List.mem_append_left _ (h before m rest hrest hm)

theorem StandsFrom.concat (h : StandsFrom history id i) (hr : r ≠ .withdrawn id) :
    StandsFrom (history ++ [r]) id i := by
  obtain ⟨before, m, after, rfl, hplace, hm, hafter, hbefore⟩ := h
  refine ⟨before, m, after ++ [r], by simp, hplace, hm, ?_, hbefore⟩
  simp [hafter, hr.symm]

theorem IsGone.standsFrom (h : IsGone history m.id) :
    StandsFrom (history ++ [.entered m]) m.id history.length :=
  ⟨history, m, [], rfl, rfl, rfl, List.not_mem_nil, h⟩

theorem StandsFrom.lt (h : StandsFrom history id i) : i < history.length := by
  obtain ⟨before, m, after, rfl, rfl, -⟩ := h
  simp

/-- An id that stands has stood from one place on. -/
theorem StandsFrom.not_lt (hi : StandsFrom history id i) (hj : StandsFrom history id j) : ¬ i < j := by
  obtain ⟨before, m, after, rfl, rfl, hm, hafter, -⟩ := hi
  obtain ⟨before', n, after', heq, rfl, -, -, hgone⟩ := hj
  intro hlt
  rcases List.append_eq_append_iff.1 heq with ⟨rest, hbefore, hrest⟩ | ⟨rest, hbefore, -⟩
  · cases rest with
    | nil => simp [hbefore] at hlt
    | cons first rest =>
      obtain ⟨rfl, rfl⟩ := List.cons.inj hrest
      exact hafter (List.mem_append_left _ (hgone before m rest hbefore hm))
  · rw [hbefore, List.length_append] at hlt
    omega

theorem StandsFrom.unique (hi : StandsFrom history id i) (hj : StandsFrom history id j) : i = j :=
  Nat.le_antisymm (Nat.not_lt.1 (hj.not_lt hi)) (Nat.not_lt.1 (hi.not_lt hj))

theorem isLatest_concat :
    IsLatest (history ++ [r]) m ↔ r = .entered m ∨ r.id ≠ m.id ∧ IsLatest history m := by
  constructor
  · rintro ⟨before, after, h, hafter⟩
    rcases split_concat.1 h with ⟨-, rfl, -⟩ | ⟨rest, rfl, rfl⟩
    · exact .inl rfl
    · refine .inr ⟨hafter r (by simp), before, rest, rfl, fun s hs => hafter s ?_⟩
      exact List.mem_append_left _ hs
  · rintro (rfl | ⟨hr, before, after, rfl, hafter⟩)
    · exact ⟨history, [], rfl, by simp⟩
    · refine ⟨before, after ++ [r], by simp, fun s hs => ?_⟩
      rcases List.mem_append.1 hs with hs | hs
      · exact hafter s hs
      · rwa [List.mem_singleton.1 hs]

instance : Std.Irrefl fun m n : Modifier => Precedes history m.id n.id where
  irrefl := by
    rintro m ⟨i, j, hi, hj, hlt⟩
    exact hi.not_lt hj hlt

instance : Std.Antisymm fun m n : Modifier => Precedes history m.id n.id where
  antisymm := by
    rintro m n ⟨i, j, hi, hj, hlt⟩ ⟨j', i', hj', hi', hlt'⟩
    rw [hi'.unique hi, hj'.unique hj] at hlt'
    omega

theorem Leaves.unique {modifiers modifiers' : List Modifier} (h : Leaves history modifiers)
    (h' : Leaves history modifiers') : modifiers = modifiers' :=
  h.ordered.eq_of_mem_iff h'.ordered fun m => (h.mem m).trans (h'.mem m).symm

end Registration

/-! ## What a pipeline holds -/

namespace Pipeline

open Registration

variable {history : List Registration} {p : Pipeline}

theorem mem_put_iff {m n : Modifier} {modifiers : List Modifier}
    (h : (modifiers.map Modifier.id).Nodup) :
    n ∈ put m modifiers ↔ n = m ∨ n.id ≠ m.id ∧ n ∈ modifiers := by
  induction modifiers with
  | nil => simp [put]
  | cons first rest ih =>
    obtain ⟨hfirst, hrest⟩ := List.nodup_cons.1 h
    by_cases hid : first.id = m.id
    · have hother : ∀ n ∈ rest, n.id ≠ m.id := by
        intro n hn heq
        exact hfirst (List.mem_map.2 ⟨n, hn, heq.trans hid.symm⟩)
      rw [put_of_eq hid, List.mem_cons, List.mem_cons]
      grind
    · rw [put_of_ne hid, List.mem_cons, List.mem_cons, ih hrest]
      grind

/-- What a pipeline holds after a history. Ids that are not there are gone, the others stand. -/
structure Follows (p : Pipeline) (history : List Registration) : Prop where
  mem : ∀ m, m ∈ p.modifiers ↔ IsLatest history m
  stands : ∀ id ∈ p.ids, ∃ place, StandsFrom history id place
  gone : ∀ id, id ∉ p.ids → IsGone history id
  ordered : p.ids.Pairwise (Precedes history)

theorem follows_empty : empty.Follows [] where
  mem m := by simp [empty, IsLatest]
  stands id hid := by cases hid
  gone id _ := isGone_nil id
  ordered := .nil

theorem ids_register (m : Modifier) (p : Pipeline) :
    (p.register m).ids = if m.id ∈ p.ids then p.ids else p.ids ++ [m.id] := ids_put m p.modifiers

theorem Follows.register (h : p.Follows history) (m : Modifier) :
    (p.register m).Follows (history ++ [.entered m]) := by
  have hkept : ∀ id i, StandsFrom history id i → StandsFrom (history ++ [.entered m]) id i :=
    fun id i hi => hi.concat Registration.noConfusion
  have hordered : p.ids.Pairwise (Precedes (history ++ [.entered m])) := by
    apply h.ordered.imp
    rintro a b ⟨i, j, hi, hj, hlt⟩
    exact ⟨i, j, hkept a i hi, hkept b j hj, hlt⟩
  have hstands : ∀ id ∈ p.ids, ∃ place, StandsFrom (history ++ [.entered m]) id place := by
    intro id hid
    obtain ⟨place, hplace⟩ := h.stands id hid
    exact ⟨place, hkept id place hplace⟩
  have hmem : ∀ n, n ∈ (p.register m).modifiers ↔ IsLatest (history ++ [.entered m]) n := by
    intro n
    rw [isLatest_concat, ← h.mem n]
    refine (mem_put_iff p.nodup).trans (or_congr ⟨?_, ?_⟩ (and_congr_left' ne_comm))
    · rintro rfl
      rfl
    · intro heq
      exact (Registration.entered.inj heq).symm
  by_cases hid : m.id ∈ p.ids
  · have hids : (p.register m).ids = p.ids := by rw [ids_register, if_pos hid]
    refine ⟨hmem, ?_, ?_, ?_⟩
    · rwa [hids]
    · rw [hids]
      intro id hgone
      exact (h.gone id hgone).concat (ne_of_mem_of_not_mem hid hgone)
    · rwa [hids]
  · have hids : (p.register m).ids = p.ids ++ [m.id] := by rw [ids_register, if_neg hid]
    have hnew := (h.gone m.id hid).standsFrom
    refine ⟨hmem, ?_, ?_, ?_⟩
    · rw [hids]
      intro id hmem
      rcases List.mem_append.1 hmem with hold | hlast
      · exact hstands id hold
      · rw [List.mem_singleton.1 hlast]
        exact ⟨_, hnew⟩
    · rw [hids]
      intro id hgone
      rw [List.mem_append, List.mem_singleton, not_or] at hgone
      exact (h.gone id hgone.1).concat (Ne.symm hgone.2)
    · rw [hids, List.pairwise_append]
      refine ⟨hordered, List.pairwise_singleton _ _, fun id hmem last hlast => ?_⟩
      obtain ⟨place, hplace⟩ := h.stands id hmem
      rw [List.mem_singleton.1 hlast]
      exact ⟨place, _, hkept id place hplace, hnew, hplace.lt⟩

theorem Follows.deregister (h : p.Follows history) (id : Text) :
    (p.deregister id).Follows (history ++ [.withdrawn id]) := by
  have hkept : ∀ other i, other ≠ id → StandsFrom history other i →
      StandsFrom (history ++ [.withdrawn id]) other i := by
    intro other i hne hi
    exact hi.concat fun heq => hne (Registration.withdrawn.inj heq).symm
  have hids : ∀ other, other ∈ (p.deregister id).ids ↔ other ∈ p.ids ∧ other ≠ id := by
    intro other
    rw [ids_deregister, List.mem_filter, bne_iff_ne]
  refine ⟨fun m => ?_, fun other hother => ?_, fun other hother => ?_, ?_⟩
  · rw [isLatest_concat, ← h.mem m]
    show m ∈ p.modifiers.filter _ ↔ _
    rw [List.mem_filter, bne_iff_ne]
    constructor
    · rintro ⟨hm, hne⟩
      exact .inr ⟨Ne.symm hne, hm⟩
    · rintro (heq | ⟨hne, hm⟩)
      · cases heq
      · exact ⟨hm, Ne.symm hne⟩
  · obtain ⟨hold, hne⟩ := (hids other).1 hother
    obtain ⟨place, hplace⟩ := h.stands other hold
    exact ⟨place, hkept other place hne hplace⟩
  · by_cases hne : other = id
    · rw [hne]
      exact isGone_concat_withdrawn
    · refine (h.gone other fun hold => ?_).concat (Ne.symm hne)
      exact hother ((hids other).2 ⟨hold, hne⟩)
  · rw [ids_deregister]
    refine (h.ordered.filter _).imp_of_mem ?_
    rintro a b ha hb ⟨i, j, hi, hj, hlt⟩
    have hane : a ≠ id := bne_iff_ne.1 (List.mem_filter.1 ha).2
    have hbne : b ≠ id := bne_iff_ne.1 (List.mem_filter.1 hb).2
    exact ⟨i, j, hkept a i hane hi, hkept b j hbne hj, hlt⟩

theorem Follows.leaves (h : p.Follows history) : Leaves history p.modifiers :=
  ⟨h.mem, List.pairwise_map.1 h.ordered⟩

end Pipeline

/-! ## Calls -/

/-- What can be asked of a pipeline. -/
inductive PipelineCall where
  | register (m : Modifier)
  | deregister (id : Text)
  | install (g : Grammar) (q : CompiledQuery) (window : Option TimeWindow) (wholeSeconds : Bool)
  | apply (base : Parameters)

namespace PipelineCall

def isApply : PipelineCall → Bool
  | .apply _ => true
  | .register _ | .deregister _ | .install .. => false

def isInstall : PipelineCall → Bool
  | .install .. => true
  | .register _ | .deregister _ | .apply _ => false

/-- What a call enters and withdraws. An installation whose window leaves the calendar breaks off
when it has entered its query. -/
def registrations : PipelineCall → List Registration
  | .register m => [.entered m]
  | .deregister id => [.withdrawn id]
  | .install g q none _ => [.entered (.ofQuery g q.params q.filter), .withdrawn Modifier.timeId]
  | .install g q (some w) wholeSeconds =>
    .entered (.ofQuery g q.params q.filter) ::
      ((g.timePart? w wholeSeconds).map fun part => .entered (.ofTime g part)).toList
  | .apply _ => []

end PipelineCall

namespace Pipeline

open Registration PipelineCall

def called (p : Pipeline) : PipelineCall → Pipeline
  | .register m => p.register m
  | .deregister name => p.deregister name
  | .install g q none _ => p.install g q.params q.filter none
  | .install g q (some w) wholeSeconds =>
    match g.timePart? w wholeSeconds with
    | some part => p.install g q.params q.filter (some part)
    | none => p.installQuery g q.params q.filter
  | .apply _ => p

theorem Follows.called {history : List Registration} {p : Pipeline} (h : p.Follows history)
    (c : PipelineCall) : (p.called c).Follows (history ++ c.registrations) := by
  cases c with
  | register m => exact h.register m
  | deregister id => exact h.deregister id
  | install g q window wholeSeconds =>
    have hquery := h.register (.ofQuery g q.params q.filter)
    cases window with
    | none =>
      have hdone := hquery.deregister Modifier.timeId
      rwa [List.append_assoc] at hdone
    | some w =>
      simp only [Pipeline.called, registrations]
      cases g.timePart? w wholeSeconds with
      | none => exact hquery
      | some part =>
        have hdone := hquery.register (.ofTime g part)
        rwa [List.append_assoc] at hdone
  | apply base =>
    rw [registrations, List.append_nil]
    exact h

theorem follows_foldl (calls : List PipelineCall) :
    (calls.foldl called empty).Follows (calls.flatMap registrations) := by
  induction calls using List.reverseRecOn with
  | nil => exact follows_empty
  | append_singleton calls c ih =>
    rw [List.foldl_append, List.flatMap_append, List.flatMap_singleton]
    exact ih.called c

theorem foldl_called_filter (calls : List PipelineCall) (p : Pipeline) :
    (calls.filter (!·.isApply)).foldl called p = calls.foldl called p := by
  rw [List.foldl_filter]
  congr 1
  funext p c
  cases c <;> rfl

theorem isInstalled_called {p : Pipeline} (h : p.IsInstalled) {c : PipelineCall}
    (hc : c.isInstall = true) : (p.called c).IsInstalled := by
  cases c with
  | register | deregister | apply => cases hc
  | install g q window wholeSeconds =>
    cases window with
    | none => exact isInstalled_install g q.params q.filter none h
    | some w =>
      simp only [called]
      split
      · exact isInstalled_install g q.params q.filter _ h
      · rcases modifiers_installQuery g q.params q.filter h with hm | ⟨n, hn, hm⟩
        · exact .query _ hm rfl
        · exact .window _ n hm rfl hn

theorem isInstalled_foldl {calls : List PipelineCall} (h : ∀ c ∈ calls, c.isInstall = true) :
    (calls.foldl called empty).IsInstalled := by
  induction calls using List.reverseRecOn with
  | nil => exact .empty rfl
  | append_singleton calls c ih =>
    rw [List.foldl_append]
    exact isInstalled_called (ih fun c hc => h c (List.mem_append_left _ hc)) (h c (by simp))

/-- Whatever is asked of a pipeline, its ids differ and its modifiers are those that the history of
registrations leaves, in its order; nothing but these is applied, and applying them is no part of the
history. Where only queries are installed, what is installed last is applied as by an empty pipeline
into which nothing else was installed. -/
theorem history_decides (calls : List PipelineCall) :
    let p := calls.foldl called empty
    p.ids.Nodup ∧ Leaves (calls.flatMap registrations) p.modifiers ∧
      (∀ modifiers, Leaves (calls.flatMap registrations) modifiers → ∀ base,
        p.apply base = modifiers.foldl (fun params m => m.apply params) base) ∧
      (calls.filter (!·.isApply)).foldl called empty = p ∧
      ((∀ c ∈ calls, c.isInstall = true ∨ c.isApply = true) → ∀ g q window wholeSeconds,
        (∀ w ∈ window, (g.timePart? w wholeSeconds).isSome = true) → ∀ base,
          (p.called (.install g q window wholeSeconds)).apply base =
            (empty.called (.install g q window wholeSeconds)).apply base) := by
  intro p
  have hleaves : Leaves (calls.flatMap registrations) p.modifiers := (follows_foldl calls).leaves
  refine ⟨p.nodup, hleaves, ?_, foldl_called_filter calls empty, ?_⟩
  · intro modifiers hmodifiers base
    rw [hmodifiers.unique hleaves]
    rfl
  · intro honly g q window wholeSeconds hwindow base
    have hinstalled : (calls.foldl called empty).IsInstalled := by
      rw [← foldl_called_filter calls empty]
      refine isInstalled_foldl fun c hc => ?_
      obtain ⟨hmem, happly⟩ := List.mem_filter.1 hc
      exact (honly c hmem).resolve_right (by simpa using happly)
    cases window with
    | none => simp only [p, called, install_eq_empty_install _ _ _ none hinstalled]
    | some w =>
      obtain ⟨part, hpart⟩ := Option.isSome_iff_exists.1 (hwindow w rfl)
      simp only [p, called, hpart, install_eq_empty_install _ _ _ (some part) hinstalled]

/-- A window that was withdrawn and entered again stands behind the query, also where it stood before
another modifier; of an earlier query and its window nothing is left. -/
theorem history_decides_of_withdrawn_window :
    let w : TimeWindow := ⟨"t", none, ⟨0, 0, by decide, by decide, by decide, by decide⟩,
      ⟨60, 0, by decide, by decide, by decide, by decide⟩, by decide⟩
    let g := Dialect.cqlText.grammar {}
    let q (filter : Text) : CompiledQuery := ⟨"L", .cqlText, g.parameter, some filter, [], []⟩
    let first : PipelineCall := .install g (q "(A = 1)") (some w) true
    let second : PipelineCall := .install g (q "(B = 2)") none false
    let calls := [first, .apply .empty, second]
    let last : PipelineCall := .install g (q "(C = 3)") (some w) false
    (((first :: .register (.setting "a" "k" "1") :: [second, last]).foldl called empty).ids =
        ([Modifier.filterId, "a", Modifier.timeId] : List Text)) ∧
      (((calls.foldl called empty).called last).apply .empty).get? g.parameter =
        some ("((C = 3) AND (t <= 1970-01-01T00:01:00.000Z) AND " ++
          "(t >= 1970-01-01T00:00:00.000Z))") := by
  intro w g q first second calls last
  have honly : ∀ c ∈ calls, c.isInstall = true ∨ c.isApply = true := by
    simp [calls, first, second, PipelineCall.isInstall, PipelineCall.isApply]
  have hlast := (history_decides calls).2.2.2.2 honly g (q "(C = 3)") (some w) false
    (by simp [Grammar.timePart?, TimeWindow.bounds?]) .empty
  rw [hlast]
  exact ⟨by decide, by decide⟩

end Pipeline
end MapQuery
