import MapQuery.Proofs.Junction.Phrases

/-!
# Regrouping merged texts

What a merge of nested texts puts together is found again when it is split. So a merged text can be
merged again, alone or with others, and the groups stay those of the texts it was made of.
-/

set_option autoImplicit false

namespace MapQuery.Junction

variable {op : Connective}

/-- Groups that a join may take as they are: each is a nested text in parentheses, and one that
stands alone gives itself to a further join. -/
structure IsSettled (op : Connective) (ms : List Text) : Prop where
  groups : ∀ m ∈ ms, ∃ s, s.IsNested ∧ m = Text.paren s
  lone : ∀ m, ms = [m] → members op m = [m]

theorem isSettled_nil : IsSettled op [] := ⟨by simp, by simp⟩

theorem isSettled_singleton {s : Text} (hs : s.IsNested)
    (h : members op (Text.paren s) = [Text.paren s]) : IsSettled op [Text.paren s] where
  groups := by
    intro m hm
    exact ⟨s, hs, List.mem_singleton.1 hm⟩
  lone := by
    intro m hm
    obtain rfl : Text.paren s = m := List.head_eq_of_cons_eq hm
    exact h

theorem IsSettled.append {ms ns : List Text} (hms : IsSettled op ms) (hns : IsSettled op ns) :
    IsSettled op (ms ++ ns) where
  groups := by
    intro m hm
    rcases List.mem_append.1 hm with hm | hm
    · exact hms.groups m hm
    · exact hns.groups m hm
  lone := by
    intro m hm
    rcases List.append_eq_singleton_iff.1 hm with ⟨-, hone⟩ | ⟨hone, -⟩
    · exact hns.lone m hone
    · exact hms.lone m hone

theorem isSettled_of_run {t : Text} (h : t.IsNested) {groups : List Text} {op' : Connective}
    (hgroups : Split.groupsOf? t = some (groups, some op')) : IsSettled op groups where
  groups := Split.exists_of_mem_groupsOf? h hgroups
  lone := by
    intro m hm
    have hlength := Split.two_le_length_of_groupsOf? hgroups
    rw [hm, List.length_singleton] at hlength
    omega

theorem isSettled_run_ne_nil {t : Text} (h : t.IsNested) {groups : List Text} {op' : Connective}
    (hgroups : Split.groupsOf? t = some (groups, some op')) :
    IsSettled op groups ∧ groups ≠ [] := by
  refine ⟨isSettled_of_run h hgroups, ?_⟩
  rintro rfl
  exact absurd (Split.two_le_length_of_groupsOf? hgroups) (by decide)

theorem isSettled_members_paren {s : Text} (hs : s.IsNested) :
    IsSettled op (members op (Text.paren s)) ∧ members op (Text.paren s) ≠ [] := by
  have hmembers := members_paren op hs
  have hself : members op (Text.paren s) = [Text.paren s] →
      IsSettled op (members op (Text.paren s)) ∧ members op (Text.paren s) ≠ [] := by
    intro h
    have hsettled := isSettled_singleton hs h
    rw [← h] at hsettled
    exact ⟨hsettled, by simp [h]⟩
  cases hgroups : Split.groupsOf? s with
  | none =>
    rw [hgroups] at hmembers
    exact hself hmembers
  | some x =>
    obtain ⟨groups, - | op'⟩ := x
    · rw [hgroups] at hmembers
      exact hself hmembers
    · simp only [hgroups] at hmembers
      by_cases hop : op' = op
      · rw [hmembers, if_pos hop]
        exact isSettled_run_ne_nil hs hgroups
      · rw [if_neg hop] at hmembers
        exact hself hmembers

/-- What a nested text gives to a join is settled, and it is nothing just if the text is blank. -/
theorem isSettled_members {t : Text} (h : t.IsNested) :
    IsSettled op (members op t) ∧ (members op t = [] ↔ Text.blank t = true) := by
  have hnested := h.trim
  by_cases hblank : Text.blank t = true
  · rw [members_of_blank hblank]
    exact ⟨isSettled_nil, by simp [hblank]⟩
  have hne : (Text.trim t).isEmpty = false := by
    rw [List.isEmpty_eq_false_iff, ne_eq, Text.trim_eq_nil_iff]
    exact hblank
  suffices hsome : IsSettled op (members op t) ∧ members op t ≠ [] from
    ⟨hsome.1, by simp [hsome.2, hblank]⟩
  have htrim : members op t = members op (Text.trim t) := by simp only [members, Text.trim_trim]
  rw [htrim]
  -- Undivided, a run, or in parentheses: the first two are put in parentheses where they are not
  -- taken apart.
  rcases Split.ofText_cases (Text.trim_trim t) hnested with
    ⟨hgroups, hsplit⟩ | ⟨groups, op', hgroups, hsplit⟩ | ⟨s, hs, hparen⟩
  · simp only [members, Text.trim_trim, hne, Bool.false_eq_true, if_false, hsplit]
    refine ⟨isSettled_singleton hnested ?_, by simp⟩
    rw [members_paren op hnested, hgroups]
  · simp only [members, Text.trim_trim, hne, Bool.false_eq_true, if_false, hsplit]
    by_cases hop : op' = op
    · rw [if_pos hop]
      exact isSettled_run_ne_nil hnested hgroups
    · rw [if_neg hop]
      refine ⟨isSettled_singleton hnested ?_, by simp⟩
      rw [members_paren op hnested]
      simp only [hgroups, if_neg hop]
  · rw [hparen]
    exact isSettled_members_paren hs

theorem isSettled_flatMap_members {xs : List Text} (h : ∀ t ∈ xs, t.IsNested) :
    IsSettled op (xs.flatMap (members op)) := by
  induction xs with
  | nil => exact isSettled_nil
  | cons t xs ih =>
    rw [List.flatMap_cons]
    refine (isSettled_members (h t (by simp))).1.append (ih ?_)
    intro u hu
    exact h u (List.mem_cons_of_mem t hu)

theorem groupsOf?_joined (op : Connective) {g : Text} {gs : List Text}
    (h : ∀ m ∈ g :: gs, ∃ s, s.IsNested ∧ m = Text.paren s) :
    ∃ cuts, Outline.ofText? 0 (Text.joined op.separator (g :: gs)) = some ⟨[], [], cuts⟩ ∧
      Split.joinedGroups? cuts = some (g :: gs, if gs.isEmpty then none else some op) := by
  induction gs generalizing g with
  | nil =>
    obtain ⟨s, hs, rfl⟩ := h g (by simp)
    exact ⟨_, Outline.ofText?_paren hs, by simp [Split.joinedGroups?]⟩
  | cons g' gs ih =>
    obtain ⟨s, hs, rfl⟩ := h g (by simp)
    obtain ⟨cuts, hscan, hjoined⟩ := ih fun m hm => h m (List.mem_cons_of_mem _ hm)
    have hseparator := Text.unbracketed_of_isMark op.isMark_separator
    refine ⟨(Text.paren s, op.separator) :: cuts, ?_, ?_⟩
    · have hrest := Outline.ofText?_zero_append hseparator (Text.joined op.separator (g' :: gs))
      rw [hscan] at hrest
      rw [Text.joined, List.append_assoc, Outline.ofText?_paren_append hs, hrest]
      simp [Outline.widenBy]
    · cases cuts with
      | nil => simp [Split.joinedGroups?] at hjoined
      | cons cut cuts =>
        simp only [Split.joinedGroups?, Connective.ofKeyword?_separator, hjoined]
        cases gs <;> simp

theorem isNested_joined (op : Connective) {ms : List Text}
    (h : ∀ m ∈ ms, ∃ s, s.IsNested ∧ m = Text.paren s) :
    (Text.joined op.separator ms).IsNested := by
  refine .joined (.of_unbracketed (Text.unbracketed_of_isMark op.isMark_separator)) ?_
  intro m hm
  obtain ⟨s, hs, rfl⟩ := h m hm
  exact hs.paren

theorem ofText_wrap {ms : List Text} (h : ∀ m ∈ ms, ∃ s, s.IsNested ∧ m = Text.paren s)
    (hlength : 2 ≤ ms.length) : Split.ofText (wrap op ms) = .wrapped op ms := by
  rcases ms with - | ⟨g, - | ⟨g', gs⟩⟩
  · simp at hlength
  · simp at hlength
  obtain ⟨cuts, hscan, hjoined⟩ := groupsOf?_joined op h
  have hgroups : Split.groupsOf? (Text.joined op.separator (g :: g' :: gs)) =
      some (g :: g' :: gs, some op) := by
    simp only [Split.groupsOf?, hscan, hjoined]
    rfl
  have hsplit := Split.ofText_paren (isNested_joined op h)
  rw [hgroups] at hsplit
  exact hsplit

theorem members_wrap (op' : Connective) {ms : List Text}
    (h : ∀ m ∈ ms, ∃ s, s.IsNested ∧ m = Text.paren s) (hlength : 2 ≤ ms.length) :
    members op' (wrap op ms) = if op = op' then ms else [wrap op ms] := by
  have htrim : Text.trim (wrap op ms) = wrap op ms := Text.trim_paren _
  have hne : (wrap op ms).isEmpty = false := rfl
  simp only [members, htrim, hne, Bool.false_eq_true, if_false, ofText_wrap h hlength]

theorem joinMembers_eq_wrap {ms : List Text} (hlength : 2 ≤ ms.length) :
    joinMembers op ms = wrap op ms := by
  rcases ms with - | ⟨g, - | ⟨g', gs⟩⟩
  · simp at hlength
  · simp at hlength
  · rfl

/-- Settled groups are found again in what they are joined to. -/
theorem members_joinMembers {ms : List Text} (h : IsSettled op ms) :
    members op (joinMembers op ms) = ms := by
  rcases hms : ms with - | ⟨g, - | ⟨g', gs⟩⟩
  · rfl
  · exact h.lone g hms
  · rw [← hms]
    have hlength : 2 ≤ ms.length := by simp [hms]
    rw [joinMembers_eq_wrap hlength, members_wrap op h.groups hlength, if_pos rfl]

theorem exists_joinMembers {ms : List Text} (h : IsSettled op ms) (hne : ms ≠ []) :
    ∃ s, s.IsNested ∧ joinMembers op ms = Text.paren s := by
  rcases hms : ms with - | ⟨g, - | ⟨g', gs⟩⟩
  · exact absurd hms hne
  · exact h.groups g (by simp [hms])
  · rw [← hms]
    exact ⟨_, isNested_joined op h.groups, joinMembers_eq_wrap (by simp [hms])⟩

/-- A settled group stands in one of the groups of what it is joined to, unless it is the only one. -/
theorem IsSettled.exists_infix {ms : List Text} (h : IsSettled op ms) {m : Text} (hm : m ∈ ms)
    (hmore : ms ≠ [m]) (op' : Connective) : ∃ g ∈ members op' (joinMembers op ms), m <:+: g := by
  have hlength : 2 ≤ ms.length := by
    rcases ms with - | ⟨g, - | ⟨g', gs⟩⟩
    · cases hm
    · exact absurd (by rw [List.mem_singleton.1 hm]) hmore
    · simp
  rw [joinMembers_eq_wrap hlength, members_wrap op' h.groups hlength]
  split
  · exact ⟨m, hm, List.infix_rfl⟩
  · refine ⟨_, List.mem_singleton_self _, ?_⟩
    exact (Text.infix_joined hm).trans (Text.infix_paren _)

/-- Its own groups always do. -/
theorem IsSettled.exists_infix_of_mem_members {ms : List Text} (h : IsSettled op ms) {m : Text}
    (hm : m ∈ ms) {op' : Connective} {part : Text} (hpart : part ∈ members op' m) :
    ∃ g ∈ members op' (joinMembers op ms), part <:+: g := by
  by_cases hlone : ms = [m]
  · rw [hlone]
    exact ⟨part, hpart, List.infix_rfl⟩
  · obtain ⟨g, hg, hin⟩ := h.exists_infix hm hlone op'
    obtain ⟨s, hs, rfl⟩ := h.groups m hm
    exact ⟨g, hg, (infix_of_mem_members_paren hs hpart).trans hin⟩

theorem flatMap_members_eq_nil_iff {xs : List Text} (h : ∀ t ∈ xs, t.IsNested) :
    xs.flatMap (members op) = [] ↔ ∀ t ∈ xs, Text.blank t = true := by
  rw [List.flatMap_eq_nil_iff]
  constructor
  · intro hnil t ht
    exact (isSettled_members (h t ht)).2.1 (hnil t ht)
  · intro hblank t ht
    exact members_of_blank (hblank t ht)

/-- A text that is not blank gives a join some groups, none of them blank, whatever its parentheses
are like. -/
theorem members_ne_nil {t : Text} (h : Text.blank t = false) :
    members op t ≠ [] ∧ ∀ m ∈ members op t, Text.blank m = false := by
  have hfilled : Text.blank (Text.trim t) = false := by rw [Text.blank_trim, h]
  have hne := Text.ne_nil_of_blank_eq_false hfilled
  have hlone : ∀ g : Text, Text.blank g = false → [g] ≠ [] ∧ ∀ m ∈ [g], Text.blank m = false := by
    intro g hg
    exact ⟨List.cons_ne_nil _ _, by simpa using hg⟩
  have hparen := hlone _ (Text.blank_paren (Text.trim t))
  simp only [members, List.isEmpty_eq_false_iff.2 hne, Bool.false_eq_true, if_false, Split.ofText]
  rcases hgroups : Split.groupsOf? (Text.trim (Text.trim t)) with - | ⟨groups, - | op'⟩
  · exact hparen
  · -- The first group of a run is none of the blank ones, and there is a first one.
    obtain ⟨hsome, hgroup⟩ := Split.ne_nil_of_groupsOf? hgroups
    have hfirst : Text.blank (groups.headD []) = false := by
      cases groups with
      | nil => exact absurd rfl hsome
      | cons g rest => exact hgroup g List.mem_cons_self
    dsimp only
    rcases hinner : Split.groupsOf? (Split.inside (groups.headD [])) with - | ⟨inner, - | op'⟩
    · exact hlone _ hfirst
    · exact hlone _ hfirst
    · dsimp only
      split
      · exact Split.ne_nil_of_groupsOf? hinner
      · exact hlone _ hfilled
  · dsimp only
    split
    · exact Split.ne_nil_of_groupsOf? hgroups
    · exact hparen

theorem blank_of_mem_flatMap_members {texts : List Text} {m : Text}
    (h : m ∈ texts.flatMap (members op)) : Text.blank m = false := by
  obtain ⟨t, -, hm⟩ := List.mem_flatMap.1 h
  cases hblank : Text.blank t with
  | true =>
    rw [members_of_blank hblank] at hm
    cases hm
  | false => exact (members_ne_nil hblank).2 m hm

theorem blank_joinMembers {ms : List Text} (hms : ms ≠ []) (h : ∀ m ∈ ms, Text.blank m = false) :
    Text.blank (joinMembers op ms) = false := by
  rcases ms with - | ⟨m, - | ⟨m', rest⟩⟩
  · exact absurd rfl hms
  · exact h m List.mem_cons_self
  · exact Text.blank_paren _

/-- A merged text is not blank unless it is empty. -/
theorem blank_merge {texts : List Text} (h : merge op texts ≠ []) :
    Text.blank (merge op texts) = false := by
  refine blank_joinMembers ?_ fun m => blank_of_mem_flatMap_members
  intro hnone
  exact h (by rw [merge, hnone, joinMembers])

/-- Only blank texts merge to nothing. -/
theorem merge_eq_nil_iff {texts : List Text} :
    merge op texts = [] ↔ ∀ t ∈ texts, Text.blank t = true := by
  constructor
  · intro hmerge t ht
    by_contra hblank
    rw [Bool.not_eq_true] at hblank
    have hsome : texts.flatMap (members op) ≠ [] := by
      intro hnone
      exact (members_ne_nil hblank).1 (List.flatMap_eq_nil_iff.1 hnone t ht)
    have hfilled : Text.blank (merge op texts) = false :=
      blank_joinMembers hsome fun m => blank_of_mem_flatMap_members
    exact Text.ne_nil_of_blank_eq_false hfilled hmerge
  · intro hblank
    have hnone : texts.flatMap (members op) = [] :=
      List.flatMap_eq_nil_iff.2 fun t ht => members_of_blank (hblank t ht)
    rw [merge, hnone]
    rfl

theorem blank_merge_of_mem {texts : List Text} {t : Text} (ht : t ∈ texts)
    (h : Text.blank t = false) : Text.blank (merge op texts) = false := by
  apply blank_merge
  intro hnone
  rw [merge_eq_nil_iff.1 hnone t ht] at h
  cases h

/-- Merging nested texts gives one group, unless all of them are blank. Splitting it gives back the
groups that the texts gave; so merging it again changes nothing, and texts may as well be merged in
parts. -/
theorem merge_regroups (op : Connective) {xs ys : List Text} (hxs : ∀ t ∈ xs, t.IsNested)
    (hys : ∀ t ∈ ys, t.IsNested) :
    let groups := xs.flatMap (members op)
    (merge op xs = [] ↔ ∀ t ∈ xs, Text.blank t = true) ∧
      (merge op xs ≠ [] → Split.isSingleGroup (merge op xs) = true) ∧
      (2 ≤ groups.length → Split.ofText (merge op xs) = .wrapped op groups) ∧
      (∀ g, groups = [g] → merge op xs = g) ∧
      merge op [merge op xs] = merge op xs ∧
      merge op [merge op xs, merge op ys] = merge op (xs ++ ys) := by
  intro groups
  have hgroups : IsSettled op groups := isSettled_flatMap_members hxs
  have hfirst : members op (merge op xs) = groups := members_joinMembers hgroups
  have hothers : IsSettled op (ys.flatMap (members op)) := isSettled_flatMap_members hys
  have hsecond : members op (merge op ys) = ys.flatMap (members op) := members_joinMembers hothers
  have hblank : groups = [] ↔ ∀ t ∈ xs, Text.blank t = true := flatMap_members_eq_nil_iff hxs
  have hempty : groups = [] → merge op xs = [] := fun h => congrArg (joinMembers op) h
  refine ⟨⟨?_, fun h => hempty (hblank.2 h)⟩, ?_, ?_, ?_, ?_, ?_⟩
  · intro h
    apply hblank.1
    rw [← hfirst, h]
    rfl
  · intro h
    obtain ⟨s, hs, hparen⟩ := exists_joinMembers hgroups fun hnil => h (hempty hnil)
    rw [merge, hparen]
    exact Split.isSingleGroup_paren hs
  · intro hlength
    rw [merge, joinMembers_eq_wrap hlength]
    exact ofText_wrap hgroups.groups hlength
  · intro g hg
    exact congrArg (joinMembers op) hg
  · simp only [merge, List.flatMap_cons, List.flatMap_nil, List.append_nil] at hfirst ⊢
    rw [hfirst]
  · simp only [merge, List.flatMap_cons, List.flatMap_nil, List.append_nil,
      List.flatMap_append] at hfirst hsecond ⊢
    rw [hfirst, hsecond]

/-- A blank text, an undivided one, a lone group, a run under either operator and a wrapped run
under the other one are merged. -/
theorem merge_regroups_of_every_shape :
    let xs : List Text := [" ", "a = f(1)", "(b)", " (c) and (d)", "( (e) OR (f) )", "(g)OR(h)"]
    let ys : List Text := ["((i) AND (j))"]
    let groups : List Text :=
      ["(a = f(1))", "(b)", "(c)", "(d)", "( (e) OR (f) )", "((g)OR(h))"]
    (∀ t ∈ xs ++ ys, t.IsNested) ∧ xs.flatMap (members .and) = groups ∧
      Split.ofText (merge .and xs) = .wrapped .and groups ∧
      merge .and [merge .and xs, merge .and ys] = merge .and (xs ++ ys) := by
  intro xs ys groups
  have hnested : ∀ t ∈ xs ++ ys, t.IsNested := by decide
  have hgroups : xs.flatMap (members .and) = groups := by decide
  obtain ⟨-, -, hsplit, -, -, hparts⟩ := merge_regroups .and
    (fun t ht => hnested t (List.mem_append_left ys ht))
    fun t ht => hnested t (List.mem_append_right xs ht)
  rw [hgroups] at hsplit
  exact ⟨hnested, hgroups, hsplit (by decide), hparts⟩

end MapQuery.Junction
