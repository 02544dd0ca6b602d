import MapQuery.Proofs.Request.Reinstallation
import MapQuery.Schedule.Refresher

/-!
# What a refresher does

Each thing that a refresher can do, said once: the four ways in which a debounce window ends,
the two in which a reply is taken, and what every one of them keeps.
-/

set_option autoImplicit false

namespace MapQuery

/-- Whether an effect brings the data of a layer up to date: they are asked for, or dropped. -/
def Effect.isAction : Effect → Bool
  | .fetch .. | .clear => true
  | .abort _ | .deliver .. | .failed .. => false

/-- The last effect that brought the data of a layer up to date. -/
def lastAction? (effects : List Effect) : Option Effect := (effects.filter Effect.isAction).getLast?

theorem lastAction?_append_of_none {done effects : List Effect}
    (h : ∀ e ∈ effects, e.isAction = false) : lastAction? (done ++ effects) = lastAction? done := by
  have hnil : effects.filter Effect.isAction = [] := by
    apply List.filter_eq_nil_iff.2
    intro e he
    simp [h e he]
  simp [lastAction?, List.filter_append, hnil]

theorem lastAction?_append_action (effects : List Effect) {e : Effect} (h : e.isAction = true) :
    lastAction? (effects ++ [e]) = some e := by
  simp [lastAction?, List.filter_append, h]

namespace Refresher

def disarmed (r : Refresher) : Refresher := { r with deadline := none }

def query (r : Refresher) (c : Content) : CompiledQuery :=
  compileQuery r.source.dialect r.source.options (r.resolution c)

/-- The four ways in which a debounce window ends. -/
inductive Expiry (now : Nat) (c : Content) (r : Refresher) : Refresher × List Effect → Prop
  /-- A request is in flight: the window is armed again. -/
  | rearmed (hflight : r.status.inFlight = true)
      (hopen : r.failsClosed (r.resolution c) = false) :
      Expiry now c r ({ r with deadline := some (now + r.pace.debounce) }, [])
  /-- The layer is hidden: the refresh is put off. -/
  | postponed (hhidden : r.status.visible = false)
      (hidle : r.status.inFlight = true → r.failsClosed (r.resolution c) = true) :
      Expiry now c r (publish { r.disarmed with
        status := { r.status with phase := .idle, refreshOnVisible := true } }, [])
  /-- No area is included though one has to be: the results are dropped. -/
  | closed (hvisible : r.status.visible = true)
      (hclosed : r.failsClosed (r.resolution c) = true) :
      Expiry now c r (r.disarmed.close (r.resolution c))
  /-- A request is issued. -/
  | issued (pipeline : Pipeline) (hvisible : r.status.visible = true)
      (hflight : r.status.inFlight = false) (hopen : r.failsClosed (r.resolution c) = false)
      (hpipeline : r.pipelineFor? (r.query c) = some pipeline) :
      Expiry now c r (r.disarmed.issue (r.query c) pipeline)

theorem expiry_of_expire {now : Nat} {c : Content} {r : Refresher}
    {result : Refresher × List Effect} (h : r.expire now c = some result) :
    Expiry now c r result := by
  change (if r.status.inFlight && !r.failsClosed (r.resolution c) then
      some ({ r with deadline := some (now + r.pace.debounce) }, [])
    else if !r.status.visible then some (publish { r.disarmed with
      status := { r.status with phase := .idle, refreshOnVisible := true } }, [])
    else if r.failsClosed (r.resolution c) then some (r.disarmed.close (r.resolution c))
    else (r.pipelineFor? (r.query c)).map fun pipeline =>
      r.disarmed.issue (r.query c) pipeline) = some result at h
  split at h
  · next hloading =>
    obtain ⟨hflight, hopen⟩ :
        r.status.inFlight = true ∧ r.failsClosed (r.resolution c) = false := by
      simpa using hloading
    obtain rfl := Option.some.inj h
    exact .rearmed hflight hopen
  · next hloading =>
    have hidle : r.status.inFlight = true → r.failsClosed (r.resolution c) = true := by
      simpa using hloading
    split at h
    · next hhidden =>
      obtain rfl := Option.some.inj h
      exact .postponed (by simpa using hhidden) hidle
    · next hhidden =>
      have hvisible : r.status.visible = true := by simpa using hhidden
      split at h
      · next hclosed =>
        obtain rfl := Option.some.inj h
        exact .closed hvisible hclosed
      · next hclosed =>
        have hopen : r.failsClosed (r.resolution c) = false := by simpa using hclosed
        obtain ⟨pipeline, hpipeline, rfl⟩ := Option.map_eq_some_iff.1 h
        refine .issued pipeline hvisible ?_ hopen hpipeline
        cases hflight : r.status.inFlight with
        | false => rfl
        | true => rw [hidle hflight] at hopen; exact absurd hopen (by decide)

def completed (r : Refresher) : Refresher :=
  publish { r with
    status := { r.status with
      inFlight := false, phase := if r.deadline.isSome then .waiting else .idle } }

/-- A reply counts if it is for the request in flight; otherwise nothing happens. -/
theorem complete_cases (r : Refresher) (generation : Nat) (reply : Reply) :
    (r.status.inFlight = true ∧ generation = r.status.generation ∧
      r.complete generation reply = (r.completed, replyEffects generation reply)) ∨
    (r.status.inFlight = true → generation ≠ r.status.generation) ∧
      r.complete generation reply = (r, []) := by
  unfold complete
  split
  · next hstale =>
    refine .inr ⟨fun hflight => ?_, rfl⟩
    simpa [hflight] using hstale
  · next hcurrent =>
    simp only [not_or, Bool.not_eq_false, Decidable.not_not] at hcurrent
    exact .inl ⟨hcurrent.1, hcurrent.2, rfl⟩

theorem isAction_replyEffects {generation : Nat} {reply : Reply} {e : Effect}
    (h : e ∈ replyEffects generation reply) : e.isAction = false := by
  cases reply with
  | body | failed =>
    obtain rfl := List.mem_singleton.1 h
    rfl
  | aborted => simp [replyEffects] at h

/-! ## What is known of the outside -/

/-- The visibility, the last request and the advisories are known as they are, and the pipeline has
no memory. -/
structure Faithful (r : Refresher) : Prop where
  visible : r.published.visible = r.status.visible
  lastRequest : r.published.lastRequest = r.status.lastRequest
  advisories : r.published.advisories = r.status.advisories
  installed : r.pipeline.IsInstalled

theorem faithful_start (source : DataSource) (pace : Pace) : (start source pace).Faithful :=
  ⟨rfl, rfl, rfl, .empty rfl⟩

theorem faithful_publish {r : Refresher} (h : r.pipeline.IsInstalled) : r.publish.Faithful :=
  ⟨rfl, rfl, rfl, h⟩

theorem Faithful.schedule {r : Refresher} (h : r.Faithful) (now : Nat) :
    (r.schedule now).Faithful := faithful_publish h.installed

theorem Faithful.setVisible {r : Refresher} (h : r.Faithful) (now : Nat) (visible : Bool) :
    (r.setVisible now visible).Faithful := by
  unfold Refresher.setVisible
  split
  · exact h
  · exact faithful_publish h.installed

theorem Faithful.abort {r : Refresher} (h : r.Faithful) : r.abort.1.Faithful := by
  unfold Refresher.abort
  split
  · exact ⟨h.visible, h.lastRequest, h.advisories, h.installed⟩
  · exact h

theorem Faithful.complete {r : Refresher} (h : r.Faithful) (generation : Nat) (reply : Reply) :
    (r.complete generation reply).1.Faithful := by
  rcases r.complete_cases generation reply with ⟨-, -, hc⟩ | ⟨-, hc⟩
  · rw [hc]
    exact faithful_publish h.installed
  · rw [hc]
    exact h

theorem isInstalled_of_pipelineFor? {r : Refresher} {q : CompiledQuery} {pipeline : Pipeline}
    (h : r.pipeline.IsInstalled) (hp : r.pipelineFor? q = some pipeline) :
    pipeline.IsInstalled := by
  unfold pipelineFor? at hp
  split at hp
  · obtain rfl := Option.some.inj hp
    exact Pipeline.isInstalled_install _ _ _ _ h
  · obtain ⟨part, -, rfl⟩ := Option.map_eq_some_iff.1 hp
    exact Pipeline.isInstalled_install _ _ _ _ h

theorem Faithful.expire {now : Nat} {c : Content} {r : Refresher}
    {result : Refresher × List Effect} (h : r.Faithful) (hr : r.expire now c = some result) :
    result.1.Faithful := by
  cases expiry_of_expire hr with
  | rearmed => exact ⟨h.visible, h.lastRequest, h.advisories, h.installed⟩
  | postponed => exact faithful_publish h.installed
  | closed =>
    have hinstalled := (Faithful.abort (r := r.disarmed)
      ⟨h.visible, h.lastRequest, h.advisories, h.installed⟩).installed
    exact faithful_publish hinstalled
  | issued pipeline _ _ _ hp => exact faithful_publish (isInstalled_of_pipelineFor? h.installed hp)

end Refresher
end MapQuery
