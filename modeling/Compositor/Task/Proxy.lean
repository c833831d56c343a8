import Compositor.Fault

/-!
# Proxies

A proxy is a gate in front of a task runner. Any thread may post through it; the
runner's own thread may shut it, once. Shutting it does not touch the tasks that wait:
each of them finds the gate shut when its turn comes, is dropped and is counted. So a
task posted before the shutdown can have no effect after it.
-/

namespace Compositor

/-- A gate in front of a task runner. -/
structure Proxy where
  shutDown : Bool := false
  /-- How many tasks came too late. -/
  dropped : Nat := 0
  deriving DecidableEq, Repr, Inhabited

namespace Proxy

/-- Shuts the gate. Off the runner's thread this faults before anything is written;
a second time it faults and changes nothing. -/
def shutdown (p : Proxy) (onThread : Bool) : Except Fault Unit × Proxy :=
  if onThread then
    if p.shutDown then (.error .proxyShutdownTwice, p) else (.ok (), { p with shutDown := true })
  else (.error .proxyShutdownOffThread, p)

/-- Counts a task that came too late. -/
def drop (p : Proxy) : Proxy := { p with dropped := p.dropped + 1 }

end Proxy

/-- Why a task runner did not do what it was asked. -/
inductive RunnerError where
  /-- It was asked on a thread that is not its own. -/
  | wrongThread (runner : String)
  /-- It takes no more tasks. -/
  | stopped (runner : String)
  deriving DecidableEq, Repr

/-- The text reported for such an error. -/
def RunnerError.message : RunnerError → String
  | .wrongThread runner => "must be called on the target thread of runner '" ++ runner ++ "'"
  | .stopped runner => "task runner '" ++ runner ++ "' has stopped accepting tasks"

end Compositor
