/-!
# Faults

An operation of this library either answers or runs into a *fault*: a sum that
does not fit its word, or a call that a component only allows on its own
thread. A fault aborts the operation that met it and whatever called that
operation, but it does not undo anything: what had been written stays written.
This is why effects are modelled throughout as functions that return a new
state *also* when they fail.

Faults are causes, not texts. The wording stands in `Fault.message` alone.
-/

namespace Compositor

/-- The operations of the memory manager that insist on its own thread. -/
inductive ManagerCall where
  | manage
  | addTrackingGroup
  | removeTrackingGroup
  | trackMemoryAllocatedChange
  deriving DecidableEq, Repr

/-- The name under which a fault reports the operation. -/
def ManagerCall.name : ManagerCall → String
  | .manage => "manage"
  | .addTrackingGroup => "add_tracking_group"
  | .removeTrackingGroup => "remove_tracking_group"
  | .trackMemoryAllocatedChange => "track_memory_allocated_change"

/-- Why an operation was aborted. -/
inductive Fault where
  /-- A sum leaves the range of its word. -/
  | addOverflow
  /-- A difference leaves the range of its word. -/
  | subOverflow
  /-- A product leaves the range of its word. -/
  | mulOverflow
  /-- A point in time or a span lies beyond the longest one. -/
  | spanOverflow
  /-- The total of a list of spans lies beyond the longest one. -/
  | spanSumOverflow
  /-- A span was divided by zero. -/
  | spanDivision
  /-- The manager was called off its thread. -/
  | managerOffThread (call : ManagerCall)
  /-- A proxy was shut down off its thread. -/
  | proxyShutdownOffThread
  /-- A proxy was shut down a second time. -/
  | proxyShutdownTwice
  /-- A tracking group reported to hold more than it is known to hold. -/
  | groupBelowZero (group : Nat)
  deriving DecidableEq, Repr

/-- The text reported for a fault. -/
def Fault.message : Fault → String
  | .addOverflow => "attempt to add with overflow"
  | .subOverflow => "attempt to subtract with overflow"
  | .mulOverflow => "attempt to multiply with overflow"
  | .spanOverflow => "overflow when adding durations"
  | .spanSumOverflow => "overflow in iter::sum over durations"
  | .spanDivision => "divide by zero error when dividing duration by scalar"
  | .managerOffThread call =>
      "GpuMemoryManager::" ++ call.name ++ " called off the target thread"
  | .proxyShutdownOffThread => "ScopedThreadProxy::shutdown called off the target thread"
  | .proxyShutdownTwice => "ScopedThreadProxy::shutdown called twice"
  | .groupBelowZero group => "group group#" ++ toString group ++ " shrank below zero"

end Compositor
