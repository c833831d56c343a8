import Compositor.Budget.Plan
import Compositor.Manager.Config
import Compositor.Manager.Ledger
import Compositor.Task.Cancel

/-!
# The memory manager

The manager divides the memory of the device among stubs, in passes. It decides when a
pass is due, and keeps the outcome of the latest one and the books of the tracking
groups.

A pass is either *immediate*, then it runs at the next turn of the manager's thread, or
*delayed*, then it gathers further requests for a while. At most one is waiting: an
immediate one is a flag, and while it is up no request has any effect; a delayed one is
a handle in a slot, which an immediate request empties. A pass that starts takes down
both.

The definitions here are the manager's own transitions; its host posts the passes and
talks to the stubs.
-/

namespace Compositor

/-- The state of a manager. -/
structure Manager where
  limits : Limits
  /-- How long a delayed pass waits. -/
  delay : Nanos
  /-- The total that the embedder fixed. -/
  fixedTotal : Option Nat
  /-- The total of the latest pass. -/
  available : Nat
  softLimit : Nat
  windows : Option Nat
  /-- Whether an immediate pass waits. -/
  immediate : Bool := false
  /-- The delayed pass that waits, if any. -/
  delayed : Slot := {}
  shutDown : Bool := false
  ledger : Ledger := {}
  /-- What each stub was given in the latest pass. -/
  lastStats : Table StubId StubStat := ∅
  lastBreakdown : Breakdown := {}
  /-- How many passes ran. -/
  passes : Nat := 0
  /-- How many reports of growth went beyond the total. -/
  overBudget : Nat := 0
  deriving Repr

namespace Manager

/-- The total to divide: what the embedder fixed, else what the driver reports if that
is not zero, else what the platform assumes. -/
def resolveTotal (fixed driver : Option Nat) (limits : Limits) : Nat :=
  match fixed with
  | some total => total
  | none =>
    match driver with
    | some total => if 0 < total then total else limits.defaultTotal
    | none => limits.defaultTotal

/-- The manager that a configuration describes, with the platform family detected. -/
def ofConfig (detected : Platform) (c : Config) : Manager :=
  let limits := c.limits detected
  { limits
    delay := c.delay
    fixedTotal := c.total
    available := resolveTotal c.total none limits
    softLimit := c.softLimit.getD limits.softLimit
    windows := c.windowCount }

/-- Whether a pass waits. -/
def isScheduled (m : Manager) (handles : Handles) : Bool :=
  m.immediate || m.delayed.isPending handles

/-- What a request for a pass has to do. -/
inductive Request where
  /-- Nothing: no pass is wanted any more, or one is waiting that serves as well. -/
  | covered
  /-- Post an immediate pass. -/
  | postNow
  /-- Post a delayed pass, guarded by a handle. -/
  | postDelayed (handle : Handle)
  deriving DecidableEq, Repr

/-- Asks for a pass. -/
def request (m : Manager) (immediate : Bool) (handles : Handles) :
    Request × Manager × Handles :=
  if m.shutDown || m.immediate then (.covered, m, handles)
  else if immediate then
    let (delayed, handles) := m.delayed.cancel handles
    (.postNow, { m with delayed, immediate := true }, handles)
  else if m.delayed.isPending handles then (.covered, m, handles)
  else
    let (handle, delayed, handles) := m.delayed.reset handles
    (.postDelayed handle, { m with delayed }, handles)

/-- The manager after the runner refused what a request posted. -/
def refused (m : Manager) (immediate : Bool) (handles : Handles) : Manager × Handles :=
  if immediate then ({ m with immediate := false }, handles)
  else
    let (delayed, handles) := m.delayed.cancel handles
    ({ m with delayed }, handles)

/-- Takes down whatever waits. A pass starts so, and so does the end. -/
def clearWaiting (m : Manager) (handles : Handles) : Manager × Handles :=
  let (delayed, handles) := m.delayed.cancel handles
  ({ m with immediate := false, delayed }, handles)

/-- The bounds of a pass over some total. -/
def bounds (m : Manager) (total : Nat) : Bounds :=
  .ofLimits m.limits total m.softLimit m.windows

/-- Keeps the outcome of a pass over some total. -/
def publish (m : Manager) (total : Nat) (plan : Plan) : Manager :=
  { m with
    available := total
    lastStats := plan.stats
    lastBreakdown := ⟨plan.visibleStubs, plan.hiddenStubs, plan.offscreenStubs,
      plan.visibleBytes, plan.hiddenBytes⟩ }

/-- The number of windows as it is kept: at least one. -/
def normalWindows (windows : Option Nat) : Option Nat := windows.map fun n => max n 1

/-- Books a report of a tracking group, and answers whether it calls for a pass: the
group grew, and all groups together hold more than there is. -/
def report (m : Manager) (id : GroupId) (old new : Nat) : Except Fault Bool × Manager :=
  let (outcome, ledger) := m.ledger.report id old new
  let m := { m with ledger }
  match outcome with
  | .error fault => (.error fault, m)
  | .ok known =>
    let calls := known && decide (old < new) && decide (m.available < m.ledger.current)
    (.ok calls, if calls then { m with overBudget := m.overBudget + 1 } else m)

/-- The summary of the manager's books. -/
def usage (m : Manager) : Except Fault Usage := do
  return {
    processes := ← m.ledger.processes
    allocated := m.ledger.current
    historicalMax := m.ledger.historicalMax
    available := m.available
    lastPass := m.lastBreakdown }

end Manager

end Compositor
