import MapQuery.Proofs.Schedule.Generations

/-!
# Phases

The phase of a running agent tells whether its debounce window is armed and, if not, whether a
request is in flight. It fails to tell so for a hidden layer whose request was left in flight when
its window ran out and the area that it needs was gone.
-/

set_option autoImplicit false

namespace MapQuery

open Deed

namespace Refresher

/-- What the phase says, and that a refresh put off while the layer was hidden is taken up again. -/
structure Phased (r : Refresher) : Prop where
  waiting : r.status.phase = .waiting ↔ r.deadline.isSome = true
  loading : r.status.phase = .loading ↔
    r.deadline = none ∧ r.status.inFlight = true ∧ r.status.visible = true
  shown : r.status.visible = true → r.status.refreshOnVisible = true → r.deadline.isSome = true

/-- A request is in flight for a layer that is hidden, and no window is armed. -/
def IsStranded (r : Refresher) : Prop :=
  r.deadline = none ∧ r.status.visible = false ∧ r.status.inFlight = true

variable {now : Nat} {c : Content} {r r' : Refresher} {deeds : List Deed}

theorem phased_start (source : DataSource) (pace : Pace) : (start source pace).Phased :=
  ⟨by simp [start], by simp [start], by simp [start]⟩

theorem phased_schedule (r : Refresher) (now : Nat) : (r.schedule now).Phased :=
  ⟨by simp [schedule, publish], by simp [schedule, publish], fun _ _ => rfl⟩

theorem phased_completed (h : r.Phased) : r.completed.Phased := by
  have hphase : r.completed.status.phase = if r.deadline.isSome then .waiting else .idle := rfl
  have hdeadline : r.completed.deadline = r.deadline := rfl
  have hflight : r.completed.status.inFlight = false := rfl
  refine ⟨?_, ?_, h.shown⟩
  · rw [hphase, hdeadline]
    cases r.deadline <;> simp
  · rw [hphase, hdeadline, hflight]
    cases r.deadline <;> simp

theorem Phased.idle_iff (h : r.Phased) : r.status.phase = .idle ↔
    r.deadline = none ∧ ¬ (r.status.inFlight = true ∧ r.status.visible = true) := by
  have hneither : r.status.phase = .idle ↔
      ¬ r.status.phase = .waiting ∧ ¬ r.status.phase = .loading := by
    cases r.status.phase <;> decide
  rw [hneither, h.waiting, h.loading]
  cases r.deadline <;> simp

theorem deadline_abort (r : Refresher) : r.abort.1.deadline = r.deadline := by
  unfold abort
  split <;> rfl

theorem Phased.expiry {result : Refresher × List Effect} (h : r.Phased)
    (harmed : r.deadline.isSome = true) (hexpiry : Expiry now c r result) : result.1.Phased := by
  cases hexpiry with
  | rearmed =>
    refine ⟨?_, ?_, fun _ _ => rfl⟩
    · simpa using h.waiting.2 harmed
    · simp [h.waiting.2 harmed]
  | postponed hhidden =>
    exact ⟨by simp [publish, disarmed], by simp [publish, hhidden], by simp [publish, hhidden]⟩
  | closed =>
    have hdeadline : r.disarmed.abort.1.deadline = none := deadline_abort _
    exact ⟨by simp [close, publish, hdeadline], by simp [close, publish, inFlight_abort],
      by simp [close, publish]⟩
  | issued pipeline hvisible =>
    have hdeadline : r.disarmed.abort.1.deadline = none := deadline_abort _
    obtain ⟨-, -, -, hsame⟩ := settings_abort r.disarmed
    have hseen : r.disarmed.abort.1.status.visible = true := hsame.trans hvisible
    exact ⟨by simp [issue, publish, hdeadline], by simp [issue, publish, hdeadline, hseen],
      by simp [issue, publish]⟩

theorem phased_does (h : r.Phased) (hdoes : r.Does now c r' deeds) : r'.Phased := by
  cases hdoes with
  | rested | unmoved | ignored => exact h
  | scheduled | turned | retimed => exact phased_schedule _ now
  | completed => exact phased_completed h
  | expired hdue hexpiry =>
    obtain ⟨deadline, hdeadline, -⟩ := (Option.any_eq_true _ _).1 hdue
    exact h.expiry (by simp [hdeadline]) hexpiry

/-- A request is stranded by nothing but the end of a window that finds the layer hidden and no area
included. -/
theorem isStranded_of_does (hdoes : r.Does now c r' deeds) (h : r'.IsStranded) :
    r.IsStranded ∨ r.deadline.any (· ≤ now) = true ∧ r.status.visible = false ∧
      r.status.inFlight = true ∧ r.failsClosed (r.resolution c) = true := by
  obtain ⟨hdeadline, hhidden, hflight⟩ := h
  cases hdoes with
  | rested | unmoved | ignored => exact .inl ⟨hdeadline, hhidden, hflight⟩
  | scheduled | turned | retimed => cases hdeadline
  | completed => cases hflight
  | expired hdue hexpiry =>
    cases hexpiry with
    | rearmed => cases hdeadline
    | postponed _ hidle => exact .inr ⟨hdue, hhidden, hflight, hidle hflight⟩
    | closed =>
      -- What is in flight was aborted.
      have hnone : r.disarmed.abort.1.status.inFlight = true := hflight
      rw [inFlight_abort] at hnone
      cases hnone
    | issued _ hvisible =>
      have hseen : r.disarmed.abort.1.status.visible = false := hhidden
      rw [(settings_abort r.disarmed).2.2.2] at hseen
      cases hseen.symm.trans hvisible

end Refresher

/-- The published status says what the agent is doing. -/
structure Agent.IsConsistent (a : Agent) (past : List Deed) : Prop where
  inFlight : a.refresher.published.inFlight = true ↔ ∃ g, IsOutstanding past g
  waiting : a.refresher.published.phase = .waiting ↔ a.refresher.deadline.isSome = true
  loading : a.refresher.published.phase = .loading ↔
    a.refresher.deadline = none ∧ ∃ g, IsOutstanding past g
  idle : a.refresher.published.phase = .idle ↔
    a.refresher.deadline = none ∧ ¬ ∃ g, IsOutstanding past g
  shown : a.refresher.published.visible = true →
    a.refresher.published.refreshOnVisible = true → a.refresher.deadline.isSome = true

/-- A request is outstanding for a layer that is hidden, and no window is armed. -/
def Agent.IsStranded (a : Agent) (past : List Deed) : Prop :=
  a.refresher.deadline = none ∧ a.refresher.published.visible = false ∧
    ∃ g, IsOutstanding past g

namespace Scene

/-- A window runs out while the layer is hidden, a request is outstanding, and no area is included
though one has to be. -/
structure Strands (s : Scene) (past : List Deed) : Prop where
  due : s.agent.refresher.deadline.any (· ≤ s.now) = true
  hidden : s.agent.refresher.published.visible = false
  outstanding : ∃ g, IsOutstanding past g
  required : s.agent.refresher.source.spatialRequired = true
  lost : (s.content.resolve s.agent.refresher.source.layer).included = []

variable {source : DataSource} {pace : Pace} {content : Content} {now : Nat} {moves : List Move}
  {s t : Scene} {past later : List Deed}

/-- What is stranded at the end of a run was so at its beginning, or came to be so on the way. -/
theorem exists_of_isStranded (h : s.trace? moves = some (t, later))
    (running : t.agent.isRunning = true) (hstranded : t.agent.refresher.IsStranded) :
    s.agent.isRunning = true ∧ (s.agent.refresher.IsStranded ∨
      ∃ before after u earlier, moves = before ++ after ∧ s.trace? before = some (u, earlier) ∧
        u.agent.isRunning = true ∧ u.agent.refresher.deadline.any (· ≤ u.now) = true ∧
        u.agent.refresher.status.visible = false ∧ u.agent.refresher.status.inFlight = true ∧
        u.agent.refresher.failsClosed (u.agent.refresher.resolution u.content) = true) := by
  induction moves generalizing s later with
  | nil =>
    obtain ⟨rfl, -⟩ : s = t ∧ [] = later := by simpa [trace?] using h
    exact ⟨running, .inl hstranded⟩
  | cons m rest ih =>
    obtain ⟨u, effects, more, hstep, hrest, -⟩ := trace?_cons.1 h
    obtain ⟨urunning, hearlier⟩ := ih hrest
    obtain ⟨srunning, hdoes⟩ := does_of_step? hstep urunning
    refine ⟨srunning, ?_⟩
    -- If it is stranded after the first move already, that move is where this came to be.
    rcases hearlier with hstranded | ⟨before, after, v, earlier, rfl, hbefore, hfacts⟩
    · rcases Refresher.isStranded_of_does hdoes hstranded with hstranded | hfacts
      · exact .inl hstranded
      · exact .inr ⟨[], m :: rest, s, [], rfl, rfl, srunning, hfacts⟩
    · exact .inr ⟨m :: before, after, v, _, rfl,
        trace?_cons.2 ⟨u, effects, earlier, hstep, hbefore, rfl⟩, hfacts⟩

theorem isStranded_iff (h : (start source pace content now).trace? moves = some (s, past))
    (running : s.agent.isRunning = true) :
    s.agent.IsStranded past ↔ s.agent.refresher.IsStranded := by
  unfold Agent.IsStranded Refresher.IsStranded
  rw [published_eq h running, exists_isOutstanding_iff h]

theorem phased (h : (start source pace content now).trace? moves = some (s, past))
    (running : s.agent.isRunning = true) : s.agent.refresher.Phased :=
  running_induction Refresher.phased_does (Refresher.phased_start source pace) h running

theorem isConsistent_of_not_isStranded
    (h : (start source pace content now).trace? moves = some (s, past))
    (running : s.agent.isRunning = true) (hfree : ¬ s.agent.refresher.IsStranded) :
    s.agent.IsConsistent past := by
  have hphased := phased h running
  have hvisible : s.agent.refresher.deadline = none →
      s.agent.refresher.status.inFlight = true → s.agent.refresher.status.visible = true := by
    intro hdeadline hflight
    cases hvisible : s.agent.refresher.status.visible with
    | true => rfl
    | false => exact absurd ⟨hdeadline, hvisible, hflight⟩ hfree
  refine ⟨?_, ?_, ?_, ?_, ?_⟩ <;> rw [published_eq h running]
  · exact (exists_isOutstanding_iff h).symm
  · exact hphased.waiting
  · rw [hphased.loading, exists_isOutstanding_iff h]
    constructor
    · rintro ⟨hdeadline, hflight, -⟩
      exact ⟨hdeadline, hflight⟩
    · rintro ⟨hdeadline, hflight⟩
      exact ⟨hdeadline, hflight, hvisible hdeadline hflight⟩
  · rw [hphased.idle_iff, exists_isOutstanding_iff h]
    constructor
    · rintro ⟨hdeadline, hnot⟩
      exact ⟨hdeadline, fun hflight => hnot ⟨hflight, hvisible hdeadline hflight⟩⟩
    · rintro ⟨hdeadline, hnot⟩
      exact ⟨hdeadline, fun hboth => hnot hboth.1⟩
  · exact hphased.shown

theorem exists_strands (h : (start source pace content now).trace? moves = some (s, past))
    (running : s.agent.isRunning = true) (hstranded : s.agent.refresher.IsStranded) :
    ∃ before after u earlier, moves = before ++ after ∧
      (start source pace content now).trace? before = some (u, earlier) ∧ u.Strands earlier := by
  obtain ⟨-, hstart | ⟨before, after, u, earlier, rfl, hbefore, urunning, hdue, hhidden, hflight,
    hclosed⟩⟩ := exists_of_isStranded h running hstranded
  · cases hstart.2.2
  · obtain ⟨hrequired, hlost⟩ : u.agent.refresher.source.spatialRequired = true ∧
        (u.content.resolve u.agent.refresher.source.layer).included = [] := by
      simpa [Refresher.failsClosed, Refresher.resolution] using hclosed
    refine ⟨before, after, u, earlier, rfl, hbefore, hdue, ?_, ?_, hrequired, hlost⟩
    · rw [published_eq hbefore urunning]
      exact hhidden
    · exact (exists_isOutstanding_iff hbefore).2 hflight

/-- The published status of a running agent is consistent unless a request is stranded. One is
stranded only after a window has run out while the layer was hidden, that request was outstanding,
and no area was included though one had to be. -/
theorem isConsistent_iff (h : (start source pace content now).trace? moves = some (s, past))
    (running : s.agent.isRunning = true) :
    (s.agent.IsConsistent past ↔ ¬ s.agent.IsStranded past) ∧
    (s.agent.IsStranded past →
      s.agent.refresher.published.phase = .idle ∧
      s.agent.refresher.published.inFlight = true ∧
      ∃ before after u earlier, moves = before ++ after ∧
        (start source pace content now).trace? before = some (u, earlier) ∧
        u.Strands earlier) := by
  rw [isStranded_iff h running]
  have hidle : s.agent.refresher.IsStranded → s.agent.refresher.published.phase = .idle := by
    rintro ⟨hdeadline, hhidden, -⟩
    rw [published_eq h running, (phased h running).idle_iff]
    refine ⟨hdeadline, ?_⟩
    rintro ⟨-, hvisible⟩
    rw [hhidden] at hvisible
    cases hvisible
  refine ⟨⟨?_, isConsistent_of_not_isStranded h running⟩, ?_⟩
  · intro hconsistent hstranded
    have hnone := (hconsistent.idle.1 (hidle hstranded)).2
    exact hnone ((exists_isOutstanding_iff h).2 hstranded.2.2)
  · intro hstranded
    refine ⟨hidle hstranded, ?_, exists_strands h running hstranded⟩
    rw [published_eq h running]
    exact hstranded.2.2

/-- The layer is hidden while a request is in flight, and its window is armed again. -/
theorem isConsistent_of_rearmed :
    let moves := [.tell .refresh, .obey, .pass 250, .expire, .tell (.setVisible false), .obey,
      .pass 250, .expire]
    ∃ s past, fenced.trace? moves = some (s, past) ∧
      s.agent.refresher.published.visible = false ∧
      s.agent.refresher.published.inFlight = true ∧ s.agent.IsConsistent past := by
  intro moves
  have hevaluated : (fenced.trace? moves).any (fun r =>
      r.1.agent.isRunning && r.1.agent.refresher.deadline.isSome &&
      !r.1.agent.refresher.published.visible && r.1.agent.refresher.published.inFlight) = true := by
    simp only [moves]
    decide +kernel
  simp only [Option.any_eq_true, Prod.exists, Bool.and_eq_true, Bool.not_eq_true'] at hevaluated
  obtain ⟨s, past, h, ⟨⟨running, harmed⟩, hhidden⟩, hflight⟩ := hevaluated
  refine ⟨s, past, h, hhidden, hflight, (isConsistent_iff h running).1.2 ?_⟩
  rintro ⟨hdeadline, -⟩
  simp [hdeadline] at harmed

/-- The layer is hidden while a request is in flight, then its area is lost. When the window runs
out the agent makes known that it is idle, with the request still in flight. -/
theorem not_isConsistent_of_stranded :
    let moves := [.tell .refresh, .obey, .pass 250, .expire, .tell (.setVisible false), .obey,
      .edit (.showArea "A" false), .hear, .pass 250, .expire]
    ∃ s past, fenced.trace? moves = some (s, past) ∧ s.agent.isRunning = true ∧
      s.agent.refresher.published.phase = .idle ∧ s.agent.refresher.deadline = none ∧
      IsOutstanding past 1 ∧ ¬ s.agent.IsConsistent past := by
  intro moves
  have hevaluated : (fenced.trace? moves).any (fun r =>
      r.1.agent.isRunning && r.1.agent.refresher.published.phase == .idle &&
      r.1.agent.refresher.deadline.isNone && r.1.agent.refresher.status.inFlight &&
      r.1.agent.refresher.status.generation == 1) = true := by
    simp only [moves]
    decide +kernel
  simp only [Option.any_eq_true, Prod.exists, Bool.and_eq_true, beq_iff_eq,
    Option.isNone_iff_eq_none] at hevaluated
  obtain ⟨s, past, h, ⟨⟨⟨running, hidle⟩, hdeadline⟩, hflight⟩, hgeneration⟩ := hevaluated
  have hopen : IsOutstanding past 1 := (isOutstanding_iff h 1).2 ⟨hflight, hgeneration.symm⟩
  refine ⟨s, past, h, running, hidle, hdeadline, hopen, ?_⟩
  intro hconsistent
  exact (hconsistent.idle.1 hidle).2 ⟨1, hopen⟩

end Scene
end MapQuery
