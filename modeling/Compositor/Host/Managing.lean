import Compositor.Host.Basic

/-!
# Managers on a host

What a manager decides, its host carries out: it posts the passes that were asked for,
asks the owner for the stubs and the stubs for what they would like, and hands out what
the plan says. The manager may be shut down from within any of these calls, and a pass
during which that happened publishes nothing.

A pass reads the surfaces of all stubs before it asks any of them, and asks in the
order of service, and only those whose answer can matter.
-/

namespace Compositor.Host

variable {S : Type}

/-- A manager by its number. -/
def seat? (number : Nat) : Act S (Option (ManagerSeat S)) := do
  return (← residents).managers.get? number

/-- Changes a manager. -/
def changeManager (number : Nat) (f : Manager → Manager) : Act S Unit :=
  change fun r =>
    { r with managers := r.managers.update number fun s => { s with manager := f s.manager } }

/-- Whether a manager is still there: it has its name, or somebody is in the middle of
calling it. -/
def managerIsAlive (r : Residents S) (number : Nat) : Bool :=
  r.managers.isNamed number || r.inUse.contains (.manager number)

/-! ## Requests -/

/-- Keeps what a transition made of a manager and of the handles. -/
def keep (number : Nat) (m : Manager) (handles : Handles) : Act S Unit := do
  changeManager number fun _ => m
  change fun r => { r with handles }

/-- Undoes a request that the runner refused. -/
def undoRequest (number : Nat) (immediate : Bool) : Act S Unit := do
  if let some seat ← seat? number then
    let (m, handles) := seat.manager.refused immediate (← residents).handles
    keep number m handles

/-- **Asks a manager for a pass.** -/
def schedule (number : Nat) (immediate : Bool) : Act S Unit := do
  match ← seat? number with
  | none => return
  | some seat =>
    let (request, m, handles) := seat.manager.request immediate (← residents).handles
    keep number m handles
    match request with
    | .covered => return
    | .postNow =>
      unless ← postVia seat.proxy (.pass number) 0 do undoRequest number true
    | .postDelayed handle =>
      unless ← postVia seat.proxy (.guarded handle (.pass number)) m.delay do
        undoRequest number false

/-- Sets the number of windows, or leaves window mode. A change asks for a pass. -/
def setWindows (number : Nat) (windows : Option Nat) : Act S Unit := do
  match ← seat? number with
  | none => return
  | some seat =>
    let windows := Manager.normalWindows windows
    if seat.manager.windows = windows then return
    changeManager number fun m => { m with windows }
    schedule number true

/-- Shuts a manager down: whatever waits is taken down, and so is its proxy. Once is
enough; a second time nothing happens. -/
def shutdownManager (number : Nat) : Act S Unit := do
  match ← seat? number with
  | none => return
  | some seat =>
    if seat.manager.shutDown then return
    let (m, handles) :=
      { seat.manager with shutDown := true }.clearWaiting (← residents).handles
    keep number m handles
    shutdownProxy seat.proxy

/-! ## Tracking groups -/

/-- Opens a tracking group. -/
def addGroup (number : Nat) (pid : Nat) : Act S (Option GroupId) := do
  requireThread (.managerOffThread .addTrackingGroup)
  match ← seat? number with
  | none => return none
  | some seat =>
    let (id, ledger) ← Action.ofExcept (seat.manager.ledger.add pid)
    changeManager number fun m => { m with ledger }
    return some id

/-- Closes a tracking group. -/
def removeGroup (number : Nat) (id : GroupId) : Act S Unit := do
  requireThread (.managerOffThread .removeTrackingGroup)
  changeManager number fun m => { m with ledger := m.ledger.remove id }

/-- Books a report of a tracking group; one that goes beyond the total asks for a
delayed pass. -/
def reportGroup (number : Nat) (id : GroupId) (old new : Nat) : Act S Unit := do
  requireThread (.managerOffThread .trackMemoryAllocatedChange)
  match ← seat? number with
  | none => return
  | some seat =>
    let (outcome, m) := seat.manager.report id old new
    changeManager number fun _ => m
    if ← Action.ofExcept outcome then schedule number false

/-- Books a report by the holder of a group, unless the manager is gone. -/
def reportHandle (h : GroupHandle) (old new : Nat) : Act S Unit := do
  if managerIsAlive (← residents) h.manager then reportGroup h.manager h.id old new

/-- The size of a group as its holder sees it: nothing once it is closed or the manager
is gone. -/
def handleSize (r : Residents S) (h : GroupHandle) : Nat :=
  if managerIsAlive r h.manager then
    ((r.managers.get? h.manager).bind fun s => s.manager.ledger.size? h.id).getD 0
  else 0

/-- Lets go of a group, which closes it unless the manager is gone. -/
def releaseHandle (h : GroupHandle) : Act S Unit := do
  if managerIsAlive (← residents) h.manager then removeGroup h.manager h.id

/-! ## Passes -/

/-- Asks the owner for the stubs. Names that nobody has are passed over. -/
def enumerate (run : S → Act S Unit) (number : Nat) : Act S (List StubId) := do
  match ← seat? number with
  | none => return []
  | some seat =>
    emit (.enumerate seat.owner.name)
    run seat.owner.onEnumerate
    let stubs := (← residents).stubs
    return seat.owner.stubs.filterMap stubs.number?

/-- Asks a stub what it would like. It answers with what its tracking group holds by now,
or, if it has none or nobody holds the group any more, with the amount that it had in mind
before it was asked. -/
def askStub (run : S → Act S Unit) (id : StubId) : Act S Nat := do
  match (← residents).stubs.get? id with
  | none => return 0
  | some stub =>
    emit (.request stub.name)
    run stub.onRequest
    let r ← residents
    return ((stub.sizeFrom.bind r.groupHandles.find?).map (handleSize r)).getD stub.requested

/-- Grants memory to a stub. -/
def grantStub (run : S → Act S Unit) (id : StubId) (allocation : Allocation) : Act S Unit := do
  match (← residents).stubs.get? id with
  | none => return
  | some stub =>
    change fun r => { r with stubs := r.stubs.update id fun s => { s with allocation } }
    emit (.grant stub.name allocation)
    run stub.onGrant

/-- The stubs of a list that share a group with a stub: those that have one of the names
that it knows them by. -/
def sharesOf (r : Residents S) (stubs : List StubId) (id : StubId) : List StubId :=
  match r.stubs.get? id with
  | none => []
  | some stub => stubs.filter fun other => (stub.shares.filterMap r.stubs.number?).contains other

/-- Asks the contenders of a pass, in the order of service, and answers what each would
like by its place. Those whose answer does not matter are not asked. -/
def askContenders (run : S → Act S Unit) (bounds : Bounds) :
    Nat → List Contender → Act S (Table Nat Nat)
  | _, [] => return ∅
  | rank, c :: rest => do
    let asked ← if bounds.asks rank c.surface then askStub run c.stub.id else pure 0
    return (← askContenders run bounds (rank + 1) rest).insert c.index asked

/-- Plans a pass over a list of stubs. -/
def planPass (run : S → Act S Unit) (bounds : Bounds) (stubs : List StubId) : Act S Plan := do
  let before ← residents
  let views : List StubView :=
    stubs.map fun id => { id, surface := (before.stubs.get? id).bind StubRecord.surface }
  let asked ← askContenders run bounds 0 (Contender.serving views)
  let after ← residents
  let views := views.zipIdx.map fun (view, index) =>
    { view with
      requested := (asked.find? index).getD 0
      shares := if view.surface.isNone then sharesOf after stubs view.id else [] }
  Action.ofExcept (Plan.ofStubs bounds views)

/-- **Runs a pass.** -/
def manage (run : S → Act S Unit) (number : Nat) : Act S Unit := do
  requireThread (.managerOffThread .manage)
  match ← seat? number with
  | none => return
  | some seat =>
    let (m, handles) := seat.manager.clearWaiting (← residents).handles
    keep number m handles
    if m.shutDown then return
    let stubs ← enumerate run number
    let driverTotal := ((← seat? number).map fun s => s.owner.driverTotal).getD none
    let total := Manager.resolveTotal m.fixedTotal driverTotal m.limits
    let plan ← planPass run (m.bounds total) stubs
    changeManager number fun m => { m with passes := m.passes + 1 }
    if ((← seat? number).map fun s => s.manager.shutDown).getD true then return
    changeManager number fun m => m.publish total plan
    (stubs.zip plan.assignments).forM fun (id, a) => grantStub run id a.allocation

/-- Runs a posted pass, unless the manager is gone. -/
def runPass (run : S → Act S Unit) (number : Nat) : Act S Unit := do
  if managerIsAlive (← residents) number then holding [.manager number] (manage run number)

end Compositor.Host
