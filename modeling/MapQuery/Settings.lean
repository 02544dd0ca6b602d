import MapQuery.Dialect.Basic
import MapQuery.Schedule.Refresher

/-!
# Settings

What a run depends on beside its arguments, each with a default: the debounce window, the rounding
of time windows and two column names.
-/

set_option autoImplicit false

namespace MapQuery

/-- The settings of a run. -/
structure Settings where
  debounce : Nat := 250
  wholeSeconds : Bool := false
  geometryColumn : Text := "geom"
  idColumn : Text := "OBJECTID"

/-- Why settings cannot be read. -/
inductive SettingsFault where
  | debounce
  | wholeSeconds
  deriving DecidableEq

namespace Settings

def debounceName : Text := "LAYERQUERY_DEBOUNCE_MS"

/-- The name of the rounding of time windows. -/
def wholeSecondsName : Text := "LAYERQUERY_ROUND_TIME_TO_SECONDS"

def geometryColumnName : Text := "LAYERQUERY_GEOMETRY_COLUMN"

/-- The name of the column of feature ids. -/
def idColumnName : Text := "LAYERQUERY_ARC_ID_FIELD"

end Settings

/-- The wording of a fault. -/
def SettingsFault.message : SettingsFault → Text
  | .debounce => Settings.debounceName ++ " must be a valid u64"
  | .wholeSeconds => Settings.wholeSecondsName ++ " must be true or false"

namespace Settings

/-- A natural number of 64 bits: ASCII digits, with or without a plus sign. -/
def readNatural? (t : Text) : Option Nat :=
  let digits := match t with
    | '+' :: rest => rest
    | _ => t
  if digits.isEmpty ∨ ¬ digits.all Char.isDigit then none
  else
    let n := digits.foldl (fun n c => 10 * n + (c.toNat - '0'.toNat)) 0
    if n < Nat.pow 2 64 then some n else none

/-- A truth value, spelled exactly. -/
def readTruth? (t : Text) : Option Bool :=
  if t = "true" then some true else if t = "false" then some false else none

/-- A setting, or its default where it is not set. -/
def readOr {α : Type} (default : α) (read : Text → Option α) : Option Text → Option α
  | none => some default
  | some t => read t

def ofLookup (lookup : Text → Option Text) : Except SettingsFault Settings :=
  let plain : Settings := {}
  match readOr plain.debounce readNatural? (lookup debounceName) with
  | none => .error .debounce
  | some debounce =>
    match readOr plain.wholeSeconds readTruth? (lookup wholeSecondsName) with
    | none => .error .wholeSeconds
    | some wholeSeconds => .ok
        ⟨debounce, wholeSeconds, (lookup geometryColumnName).getD plain.geometryColumn,
          (lookup idColumnName).getD plain.idColumn⟩

def pace (s : Settings) : Pace := ⟨s.debounce, s.wholeSeconds⟩

/-- The options of compilation; the columns are not known. -/
def options (s : Settings) : CompileOptions := ⟨s.geometryColumn, s.idColumn, none⟩

end Settings
end MapQuery
