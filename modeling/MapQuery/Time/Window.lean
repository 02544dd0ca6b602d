import MapQuery.Text.Basic
import MapQuery.Time.Instant

/-!
# Time windows

The window a layer is restricted to: two instants and the columns that hold the validity of a
feature. To whole seconds a window is widened outward.
-/

set_option autoImplicit false

namespace MapQuery

/-- A time window; features whose validity overlaps it belong to it. -/
structure TimeWindow where
  startColumn : Text
  /-- The column of the end of validity, where it is not that of the start. -/
  endColumn? : Option Text
  lower : Instant
  upper : Instant
  ordered : lower.notAfter upper = true
  deriving DecidableEq

namespace TimeWindow

/-- The window between two instants, unless they are in the wrong order. -/
def ofBounds? (startColumn : Text) (endColumn? : Option Text) (lower upper : Instant) :
    Option TimeWindow :=
  if h : lower.notAfter upper = true then some ⟨startColumn, endColumn?, lower, upper, h⟩
  else none

def endColumn (w : TimeWindow) : Text := w.endColumn?.getD w.startColumn

/-- The bounds as they are sent. To whole seconds the lower one is rounded down and the upper one
up, which fails only beyond the last second of the calendar. -/
def bounds? (w : TimeWindow) (wholeSeconds : Bool) : Option (Instant × Instant) :=
  if wholeSeconds then w.upper.ceilSecond?.map fun upper => (w.lower.floorSecond, upper)
  else some (w.lower, w.upper)

end TimeWindow
end MapQuery
