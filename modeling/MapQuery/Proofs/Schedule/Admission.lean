import MapQuery.Proofs.Schedule.Generations
import MapQuery.Proofs.Schedule.Quiescence

/-!
# Requests that are issued

A request is issued for a visible layer only, one at a time, with an area included if one has to be.
Its parameters depend on nothing but the content at that moment and the time window that was set
last, whatever was requested before.
-/

set_option autoImplicit false

namespace MapQuery

open Deed

/-- Whether the layer is visible after a command, given whether it was before. -/
def Command.visibleAfter (visible : Bool) : Command → Bool
  | .setVisible visible' => visible'
  | .refresh | .setWindow _ | .stop => visible

/-- The parameters that a pipeline without a past makes of the base parameters, once the query for
the content and the time window are installed in it; `none` if the window leaves the calendar. -/
def DataSource.freshRequest? (source : DataSource) (pace : Pace) (window : Option TimeWindow)
    (content : Content) : Option Parameters :=
  let grammar := source.dialect.grammar source.options
  let q := compileQuery source.dialect source.options (content.resolve source.layer)
  let applied (part : Option TimePart) :=
    (Pipeline.empty.install grammar q.params q.filter part).apply source.base
  match window with
  | none => some (applied none)
  | some w => (grammar.timePart? w pace.wholeSeconds).map fun part => applied (some part)

namespace Deed

def obeyed? : Deed → Option Command
  | .obeyed command => some command
  | .took _ | .did _ => none

/-- The time window that was set last. -/
def lastWindow (past : List Deed) : Option TimeWindow :=
  (past.filterMap obeyed?).foldl Command.windowAfter none

/-- Whether a layer that was visible or not at first is visible after all commands. -/
def isShown (visible : Bool) (past : List Deed) : Bool :=
  (past.filterMap obeyed?).foldl Command.visibleAfter visible

theorem filterMap_obeyed?_did (effects : List Effect) :
    (effects.map did).filterMap obeyed? = [] := by
  apply List.filterMap_eq_nil_iff.2
  intro d hd
  obtain ⟨e, -, rfl⟩ := List.mem_map.1 hd
  rfl

end Deed

namespace Refresher

variable {now : Nat} {c : Content} {r r' : Refresher} {deeds : List Deed}

/-- Only commands change what a refresher is set to. -/
theorem settings_does (h : r.Does now c r' deeds) :
    r'.window = (deeds.filterMap obeyed?).foldl Command.windowAfter r.window ∧
      r'.status.visible =
        (deeds.filterMap obeyed?).foldl Command.visibleAfter r.status.visible := by
  cases h with
  | rested | ignored => exact ⟨rfl, rfl⟩
  | unmoved visible hsame => exact ⟨rfl, hsame⟩
  | scheduled _ hdeeds =>
    rcases hdeeds with rfl | rfl <;> exact ⟨rfl, rfl⟩
  | turned | retimed => exact ⟨rfl, rfl⟩
  | completed reply =>
    rw [List.filterMap_cons_none rfl, filterMap_obeyed?_did]
    exact ⟨rfl, rfl⟩
  | expired _ hexpiry =>
    rw [filterMap_obeyed?_did]
    exact (settings_expiry hexpiry).2.2

theorem freshRequest?_query (r : Refresher) (c : Content) :
    r.freshRequest? (r.query c) = r.source.freshRequest? r.pace r.window c := by
  unfold freshRequest? pipelineFor? DataSource.freshRequest?
  cases r.window with
  | none => rfl
  | some w =>
    show Option.map _ (Option.map _ _) = _
    rw [Option.map_map]
    rfl

theorem fetch_notMem_abort (r : Refresher) (generation : Nat) (params : Parameters) :
    .fetch generation params ∉ r.abort.2 := by
  unfold abort
  split <;> simp

/-- A request is issued by nothing but the end of a window, and only if nothing is against it. -/
theorem admitted_of_does (hdoes : r.Does now c r' deeds) {generation : Nat} {params : Parameters}
    (h : .did (.fetch generation params) ∈ deeds) :
    r.status.visible = true ∧ r.status.inFlight = false ∧
      r.failsClosed (r.resolution c) = false ∧
      (r.pipelineFor? (r.query c)).map (·.apply r.source.base) = some params := by
  cases hdoes with
  | rested | unmoved | ignored | turned | retimed => simp at h
  | scheduled _ hdeeds => rcases hdeeds with rfl | rfl <;> simp at h
  | completed reply => cases reply <;> simp [replyEffects] at h
  | expired _ hexpiry =>
    have hmem := (List.mem_map_of_injective fun _ _ => Deed.did.inj).1 h
    cases hexpiry with
    | rearmed | postponed => cases hmem
    | closed =>
      rcases List.mem_append.1 hmem with habort | hclear
      · exact absurd habort (fetch_notMem_abort _ _ _)
      · simp at hclear
    | issued pipeline hvisible hflight hopen hpipeline =>
      rcases List.mem_append.1 hmem with habort | hfetch
      · exact absurd habort (fetch_notMem_abort _ _ _)
      · obtain ⟨-, rfl⟩ := Effect.fetch.inj (List.mem_singleton.1 hfetch)
        refine ⟨hvisible, hflight, hopen, ?_⟩
        rw [hpipeline]
        rfl

end Refresher

namespace Scene

variable {source : DataSource} {pace : Pace} {content : Content} {now : Nat} {moves : List Move}
  {m : Move} {s t : Scene} {past : List Deed} {effects : List Effect}

theorem settings_step? (h : s.step? m = some (t, effects)) :
    t.agent.refresher.window = ((s.deeds m effects).filterMap obeyed?).foldl Command.windowAfter
        s.agent.refresher.window ∧
      t.agent.refresher.status.visible =
        ((s.deeds m effects).filterMap obeyed?).foldl Command.visibleAfter
          s.agent.refresher.status.visible := by
  rcases changes_of_step? h with hdoes | ⟨-, hrefresher, hdeeds⟩
  · exact Refresher.settings_does hdoes
  · obtain ⟨-, -, hsettings⟩ := Refresher.settings_abort s.agent.refresher
    rw [hrefresher, hdeeds, List.filterMap_cons_some (f := obeyed?) rfl, filterMap_obeyed?_did]
    exact hsettings

/-- The window and the visibility of a layer are what commands made of them. -/
theorem settings_trace? (h : (start source pace content now).trace? moves = some (s, past)) :
    s.agent.refresher.window = lastWindow past ∧
      s.agent.refresher.status.visible = isShown source.visible past := by
  apply trace?_induction (P := fun s past => s.agent.refresher.window = lastWindow past ∧
    s.agent.refresher.status.visible = isShown source.visible past) _ [] ⟨rfl, rfl⟩ h
  intro s t m past effects hs hstep
  obtain ⟨hwindow, hvisible⟩ := settings_step? hstep
  unfold lastWindow isShown at hs ⊢
  rw [List.filterMap_append, List.foldl_append, List.foldl_append, ← hs.1, ← hs.2]
  exact ⟨hwindow, hvisible⟩

theorem admitted_of_step? (hstep : s.step? m = some (t, effects)) {generation : Nat}
    {params : Parameters} (hfetch : .fetch generation params ∈ effects) :
    s.agent.refresher.status.visible = true ∧ s.agent.refresher.status.inFlight = false ∧
      s.agent.refresher.failsClosed (s.agent.refresher.resolution s.content) = false ∧
      (s.agent.refresher.pipelineFor? (s.agent.refresher.query s.content)).map
        (·.apply s.agent.refresher.source.base) = some params := by
  have hmem : .did (.fetch generation params) ∈ s.deeds m effects :=
    List.mem_append_right _ (List.mem_map_of_mem hfetch)
  rcases changes_of_step? hstep with hdoes | ⟨-, -, hdeeds⟩
  · exact Refresher.admitted_of_does hdoes hmem
  · -- Stopping the agent aborts, but issues nothing.
    rw [hdeeds] at hmem
    rcases List.mem_cons.1 hmem with hstop | habort
    · cases hstop
    · have habort := (List.mem_map_of_injective fun _ _ => Deed.did.inj).1 habort
      exact absurd habort (Refresher.fetch_notMem_abort _ _ _)

/-- A request is issued only for a visible layer, with no request outstanding and with an area
included if one has to be. It is the fresh request for the content at that moment and the window
that was set last. -/
theorem admitted_of_fetch (h : (start source pace content now).trace? moves = some (s, past))
    (hstep : s.step? m = some (t, effects)) {generation : Nat} {params : Parameters}
    (hfetch : .fetch generation params ∈ effects) :
    s.agent.refresher.published.visible = true ∧ isShown source.visible past = true ∧
    (¬ ∃ g, IsOutstanding past g) ∧
    (source.spatialRequired = true → (s.content.resolve source.layer).included ≠ []) ∧
    source.freshRequest? pace (lastWindow past) s.content = some params := by
  obtain ⟨hvisible, hflight, hopen, hparams⟩ := admitted_of_step? hstep hfetch
  have hfaithful : s.agent.refresher.Faithful :=
    faithful_run (Refresher.faithful_start source pace) (run?_of_trace? h)
  obtain ⟨hsource, hpace⟩ := source_trace? h
  obtain ⟨hwindow, hshown⟩ := settings_trace? h
  refine ⟨hfaithful.visible.trans hvisible, hshown.symm.trans hvisible, ?_, ?_, ?_⟩
  · rw [exists_isOutstanding_iff h, hflight]
    decide
  · intro hrequired hnone
    simp [Refresher.failsClosed, Refresher.resolution, hsource, hrequired, hnone] at hopen
  · rw [Refresher.map_apply_pipelineFor? hfaithful.installed, Refresher.freshRequest?_query,
      hsource, hpace, hwindow] at hparams
    exact hparams

/-- A request with a time window is answered while the layer is hidden. The window is cleared, the
layer is shown again, and the next request is a fresh one without a window. -/
theorem admitted_of_fetch_of_cleared_window :
    let window := (Instant.ofParts? 0 0).bind fun lower =>
      (Instant.ofParts? 60 0).bind fun upper => TimeWindow.ofBounds? "t" none lower upper
    let moves := [.tell (.setWindow window), .obey, .pass 250, .expire,
      .tell (.setVisible false), .obey, .respond ⟨1, .body "first"⟩, .receive,
      .tell (.setWindow none), .obey, .pass 250, .expire, .tell (.setVisible true), .obey,
      .pass 250]
    ∃ s past t earlier params, fenced.trace? moves = some (s, past) ∧
      s.agent.refresher.published.lastRequest = some earlier ∧ earlier ≠ params ∧
      s.step? .expire = some (t, [.fetch 2 params]) ∧
      fencedSource.freshRequest? {} none s.content = some params := by
  intro window moves
  have hevaluated : (fenced.trace? moves).any (fun r => lastWindow r.2 == none &&
      r.1.agent.refresher.published.lastRequest.any fun earlier =>
      (r.1.step? .expire).any fun r' =>
      r'.1.agent.refresher.published.lastRequest.any fun params =>
        earlier != params && r'.2 == [.fetch 2 params]) = true := by
    simp only [moves, window]
    decide +kernel
  simp only [Option.any_eq_true, Prod.exists, Bool.and_eq_true, beq_iff_eq, bne_iff_ne]
    at hevaluated
  obtain ⟨s, past, h, hwindow, earlier, hearlier, t, effects, hstep, params, -, hne, rfl⟩ :=
    hevaluated
  obtain ⟨-, -, -, -, hfresh⟩ := admitted_of_fetch h hstep (List.mem_singleton_self _)
  rw [hwindow] at hfresh
  exact ⟨s, past, t, earlier, params, h, hearlier, hne, hstep, hfresh⟩

end Scene
end MapQuery
