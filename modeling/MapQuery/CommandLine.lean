import MapQuery.Settings
import MapQuery.Time.Timestamp
import MapQuery.Workspace.Document

/-!
# The command line

Two commands work on a saved workspace: one prints what applies to a layer, the other the request
parameters of the layer.
-/

set_option autoImplicit false

namespace MapQuery.CommandLine

/-- What both commands need. -/
structure Target where
  workspace : Text
  layer : Layer

structure Compilation where
  dialect : Dialect
  /-- The bounds of the time window, if there is one. -/
  bounds : Option (Instant × Instant)
  startColumn : Option Text
  endColumn : Option Text
  /-- Whether the parameters are printed as a query string. -/
  queryString : Bool

inductive Command where
  | resolve (target : Target)
  | compile (target : Target) (what : Compilation)

/-- Whether an argument is an option rather than a value. -/
def looksLikeOption : Text → Bool
  | '-' :: _ :: _ => true
  | _ => false

/-- Options with their values; `pending` is one whose value comes next. A switch has no value. -/
def options? (valued switches : List Text) :
    (pending : Option Text) → List Text → Option (List (Text × Text))
  | none, [] => some []
  | some _, [] => none
  | some name, value :: rest =>
    if looksLikeOption value then none
    else (options? valued switches none rest).map ((name, value) :: ·)
  | none, arg :: rest =>
    match Text.dropBeginning? "--" arg with
    | none => none
    | some option =>
      let name := option.takeWhile (· != '=')
      match option.dropWhile (· != '=') with
      | _ :: value =>
        if valued.contains name then
          (options? valued switches none rest).map ((name, value) :: ·)
        else none
      | [] =>
        if name.isEmpty then if rest.isEmpty then some [] else none
        else if valued.contains name then options? valued switches (some name) rest
        else if switches.contains name then
          (options? valued switches none rest).map ((name, []) :: ·)
        else none

def areDistinct : List (Text × Text) → Bool
  | [] => true
  | o :: rest => !(rest.any fun p => p.1 == o.1) && areDistinct rest

def targetOptions : List Text := ["workspace", "layer", "entry-type"]

def compileOptions : List Text := ["dialect", "from", "to", "start-column", "end-column"]

def compileSwitches : List Text := ["query-string"]

/-- The target that options name; the workspace needs a name. -/
def target? (options : List (Text × Text)) : Option Target := do
  let workspace ← options.lookup ("workspace" : Text)
  let layer ← options.lookup ("layer" : Text)
  if workspace.isEmpty then none
  else some ⟨workspace, ⟨layer, (options.lookup ("entry-type" : Text)).getD "wfs"⟩⟩

/-- The bounds that options give: both or none. -/
def bounds? (options : List (Text × Text)) : Option (Option (Instant × Instant)) :=
  match options.lookup ("from" : Text), options.lookup ("to" : Text) with
  | none, none => some none
  | some lower, some upper => do
    let lower ← Timestamp.read? lower
    let upper ← Timestamp.read? upper
    some (some (lower, upper))
  | _, _ => none

/-- The command of some arguments. -/
def command? (args : List Text) : Option Command :=
  match args with
  | [] => none
  | name :: args =>
    if name = "resolve" then do
      let options ← (options? targetOptions [] none args).filter areDistinct
      let target ← target? options
      some (.resolve target)
    else if name = "compile" then do
      let options ← (options? (targetOptions ++ compileOptions) compileSwitches none args).filter
        areDistinct
      let target ← target? options
      let dialect ← (options.lookup ("dialect" : Text)).bind Dialect.ofName?
      let bounds ← bounds? options
      some (.compile target ⟨dialect, bounds, options.lookup ("start-column" : Text),
        options.lookup ("end-column" : Text), (options.lookup ("query-string" : Text)).isSome⟩)
    else none

/-- How a run ends other than by printing its result. -/
inductive Failure where
  /-- The arguments make no command. -/
  | misuse
  | settings (fault : SettingsFault)
  | unreadable (path : Text)
  | unparsable (path : Text)
  | noStartColumn
  | wrongOrder
  /-- A bound of the time window leaves the calendar. -/
  | outOfCalendar

def Failure.exitCode : Failure → Nat
  | .misuse => 2
  | .outOfCalendar => 101
  | _ => 1

/-- The wording of a failure; misuse is not worded here. -/
def Failure.message? : Failure → Option Text
  | .misuse | .outOfCalendar => none
  | .settings _ => some "failed to load configuration"
  | .unreadable path => some ("failed to read " ++ path)
  | .unparsable path => some ("failed to parse " ++ path)
  | .noStartColumn => some "--start-column is required with a time window"
  | .wrongOrder => some "--from must not be after --to"

def load (read : Text → Option Text) (path : Text) : Except Failure Content :=
  match read path with
  | none => .error (.unreadable path)
  | some text =>
    match Document.ofText? text with
    | .error _ => .error (.unparsable path)
    | .ok document => .ok document.content

def window (what : Compilation) : Except Failure (Option TimeWindow) :=
  match what.bounds, what.startColumn with
  | none, _ => .ok none
  | some _, none => .error .noStartColumn
  | some (lower, upper), some column =>
    match TimeWindow.ofBounds? column what.endColumn lower upper with
    | none => .error .wrongOrder
    | some w => .ok (some w)

def requestParameters (settings : Settings) (content : Content) (layer : Layer)
    (what : Compilation) : Except Failure Parameters := do
  let q := compileQuery what.dialect settings.options (content.resolve layer)
  let g := what.dialect.grammar settings.options
  let time ← match ← window what with
    | none => .ok none
    | some w =>
      match g.timePart? w settings.wholeSeconds with
      | none => .error .outOfCalendar
      | some part => .ok (some part)
  .ok ((Pipeline.empty.install g q.params q.filter time).apply .empty)

def output (settings : Settings) (read : Text → Option Text) :
    Command → Except Failure Text
  | .resolve target => do
    let content ← load read target.workspace
    .ok ((content.resolve target.layer).summary.indented ++ "\n")
  | .compile target what => do
    let content ← load read target.workspace
    let params ← requestParameters settings content target.layer what
    .ok (if what.queryString then params.queryString ++ "\n" else params.lines)

/-- What a run prints, given its arguments, its settings and how files are read. -/
def run (args : List Text) (lookup read : Text → Option Text) : Except Failure Text :=
  match command? args with
  | none => .error .misuse
  | some command =>
    match Settings.ofLookup lookup with
    | .error fault => .error (.settings fault)
    | .ok settings => output settings read command

end MapQuery.CommandLine
