import Compositor.Metrics.Window

/-!
# Pass timing

How often a pass ran, and how long the latest passes took. The count goes on
for ever; mean and maximum speak of the passes in the window only.
-/

namespace Compositor

/-- A count of passes and the time the latest ones took. -/
structure PassTimer where
  enabled : Bool := true
  spans : Window Nanos := .ofCapacity 32
  passes : Nat := 0
  deriving Repr

namespace PassTimer

/-- A timer that looks at the given number of passes. -/
def ofCapacity (capacity : Nat) : PassTimer := { spans := .ofCapacity capacity }

/-- A timer that is switched off. -/
def off : PassTimer := { enabled := false, spans := .off }

/-- Counts a pass and the time it took. -/
def record (t : PassTimer) (elapsed : Nanos) : PassTimer :=
  if t.enabled then { t with spans := t.spans.push elapsed, passes := t.passes + 1 } else t

/-- The mean of the latest passes in milliseconds. -/
def averageMillis (t : PassTimer) : Except Fault Float :=
  t.spans.average.map fun mean => mean.toSeconds64 * 1000.0

/-- The longest of the latest passes in milliseconds. -/
def longestMillis (t : PassTimer) : Float := t.spans.longest.toSeconds64 * 1000.0

end PassTimer

end Compositor
