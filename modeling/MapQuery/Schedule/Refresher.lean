import MapQuery.Request.Pipeline

/-!
# Refreshing one layer

A refresher issues the requests of one layer. Every change starts its debounce window anew; when
the window expires, the layer is resolved, compiled and requested. At most one request is in
flight. Each issue and each abort starts a new generation, by which a late response to an aborted
request is known.
-/

set_option autoImplicit false

namespace MapQuery

/-- What refreshing depends on beside the layer. -/
structure Pace where
  /-- The debounce window in milliseconds. -/
  debounce : Nat := 250
  /-- Whether time windows are sent to the second. -/
  wholeSeconds : Bool := false

/-- A layer and how its data are requested. -/
structure DataSource where
  layer : Layer
  dialect : Dialect
  /-- Nothing is requested unless an area is included. -/
  spatialRequired : Bool
  visible : Bool
  /-- The parameters that every request starts from. -/
  base : Parameters
  options : CompileOptions

/-- What a layer is doing. -/
inductive Phase where
  | idle
  | waiting
  | loading
  deriving DecidableEq

/-- What others can see of a refresher. -/
structure Status where
  phase : Phase := .idle
  /-- Grows with every issue and every abort. -/
  generation : Nat := 0
  visible : Bool
  /-- A refresh was put off until the layer is shown again. -/
  refreshOnVisible : Bool := false
  inFlight : Bool := false
  /-- How many requests have been issued. -/
  issued : Nat := 0
  lastRequest : Option Parameters := none
  advisories : List Advisory := []
  deriving DecidableEq

/-- How a request ends. -/
inductive Reply where
  | body (text : Text)
  | aborted
  | failed (message : Text)
  deriving DecidableEq

/-- The wording of a failed request. -/
def failureText (message : Text) : Text := "request failed: " ++ message

/-- What a refresher does to the world. -/
inductive Effect where
  | fetch (generation : Nat) (params : Parameters)
  | abort (generation : Nat)
  | deliver (generation : Nat) (body : Text)
  | clear
  | failed (generation : Nat) (text : Text)
  deriving DecidableEq

/-- The state of a refresher. -/
structure Refresher where
  source : DataSource
  pace : Pace
  status : Status
  /-- The status as it was last made known. -/
  published : Status
  window : Option TimeWindow
  /-- When the debounce window expires, while there is one. -/
  deadline : Option Nat
  pipeline : Pipeline

namespace Refresher

/-- A refresher that has nothing to do yet. -/
def start (source : DataSource) (pace : Pace) : Refresher :=
  let status : Status := { visible := source.visible }
  ⟨source, pace, status, status, none, none, .empty⟩

def publish (r : Refresher) : Refresher := { r with published := r.status }

def schedule (now : Nat) (r : Refresher) : Refresher :=
  publish { r with
    deadline := some (now + r.pace.debounce)
    status := { r.status with phase := .waiting } }

def setVisible (now : Nat) (visible : Bool) (r : Refresher) : Refresher :=
  if r.status.visible = visible then r
  else schedule now { r with status := { r.status with visible := visible } }

def setWindow (now : Nat) (window : Option TimeWindow) (r : Refresher) : Refresher :=
  schedule now { r with window := window }

def abort (r : Refresher) : Refresher × List Effect :=
  if r.status.inFlight then
    ({ r with
        status := { r.status with generation := r.status.generation + 1, inFlight := false } },
      [.abort r.status.generation])
  else (r, [])

/-- What the layer's entries select in some content. -/
def resolution (r : Refresher) (c : Content) : Resolution := c.resolve r.source.layer

/-- Whether nothing may be requested because no area is included. -/
def failsClosed (r : Refresher) (resolution : Resolution) : Bool :=
  r.source.spatialRequired && resolution.included.isEmpty

def grammar (r : Refresher) : Grammar := r.source.dialect.grammar r.source.options

/-- The pipeline for a compiled query and the time window; `none` if the window leaves the
calendar. -/
def pipelineFor? (r : Refresher) (q : CompiledQuery) : Option Pipeline :=
  match r.window with
  | none => some (r.pipeline.install r.grammar q.params q.filter none)
  | some w =>
    (r.grammar.timePart? w r.pace.wholeSeconds).map fun part =>
      r.pipeline.install r.grammar q.params q.filter (some part)

/-- Drops the layer's results, since nothing may be requested. -/
def close (resolution : Resolution) (r : Refresher) : Refresher × List Effect :=
  let (r, effects) := r.abort
  (publish { r with
      status := { r.status with
        phase := .idle, refreshOnVisible := false, advisories := resolution.advisories } },
    effects ++ [.clear])

def issue (q : CompiledQuery) (pipeline : Pipeline) (r : Refresher) : Refresher × List Effect :=
  let params := pipeline.apply r.source.base
  let (r, effects) := r.abort
  let generation := r.status.generation + 1
  (publish { r with
      pipeline := pipeline
      status := { r.status with
        phase := .loading, generation := generation, inFlight := true, refreshOnVisible := false,
        issued := r.status.issued + 1, lastRequest := some params, advisories := q.advisories } },
    effects ++ [.fetch generation params])

/-- Does what the expired debounce window was for. While a request is in flight the window is
armed again; while the layer is hidden the refresh is put off. There is no next state if the time
window leaves the calendar. -/
def expire (now : Nat) (c : Content) (r : Refresher) : Option (Refresher × List Effect) :=
  let r := { r with deadline := none }
  let resolution := r.resolution c
  if r.status.inFlight && !r.failsClosed resolution then
    some ({ r with deadline := some (now + r.pace.debounce) }, [])
  else if !r.status.visible then
    some (publish { r with
      status := { r.status with phase := .idle, refreshOnVisible := true } }, [])
  else if r.failsClosed resolution then some (r.close resolution)
  else
    let q := compileQuery r.source.dialect r.source.options resolution
    (r.pipelineFor? q).map fun pipeline => r.issue q pipeline

/-- What a reply of the current generation leads to. -/
def replyEffects (generation : Nat) : Reply → List Effect
  | .body text => [.deliver generation text]
  | .aborted => []
  | .failed message => [.failed generation (failureText message)]

/-- Takes the reply to a request, unless the request is no longer the one in flight. -/
def complete (generation : Nat) (reply : Reply) (r : Refresher) : Refresher × List Effect :=
  if r.status.inFlight = false ∨ generation ≠ r.status.generation then (r, [])
  else
    (publish { r with
        status := { r.status with
          inFlight := false, phase := if r.deadline.isSome then .waiting else .idle } },
      replyEffects generation reply)

/-- Hears of a change, which matters only if it concerns the layer. -/
def hear (now : Nat) (c : Content) (change : Change) (r : Refresher) : Refresher :=
  if c.concerns r.source.layer.id change then schedule now r else r

end Refresher
end MapQuery
