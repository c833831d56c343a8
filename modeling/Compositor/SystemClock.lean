import Compositor.Span

/-!
# The system clock

The clock of the machine, for programs that run in real time. It never goes back. All
else in this library is told the time by its caller.
-/

namespace Compositor.SystemClock

/-- Nanoseconds since some fixed moment. -/
def now : IO Nanos := IO.monoNanosNow

end Compositor.SystemClock
