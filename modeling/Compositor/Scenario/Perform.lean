import Compositor.Host.Running
import Compositor.Scenario.Step

/-!
# Doing steps

What each step of a scenario does to a host, and what it answers. Pumping the runner
and calling back run scripts, and scripts are steps again; the knot is tied with fuel,
one unit for each level of steps within steps. `Step.perform` does a step when it is
told how to run a script, and `Step.exec` tells it to perform the steps of the script
one after the other, noting each. A fault ends the script, and with it the step that ran
it.
-/

namespace Compositor

namespace Host

variable {S : Type}

/-- Does something with what a name stands for, if it stands for anything. -/
def withNamed {α : Type} (found : Option α) (f : α → Act S Reply) : Act S Reply :=
  match found with
  | none => return .unknown
  | some a => f a

/-- Guards a task. A handle or a slot is ready before the task is posted. -/
def guardTask (guard : Guard) (task : Task S) : Act S (Task S) := do
  match guard with
  | .none => return task
  | .handle name =>
    let (handle, handles) := (← residents).handles.issue
    change fun r => { r with handles, cancelHandles := r.cancelHandles.insert name handle }
    return .guarded handle task
  | .slot name =>
    let r ← residents
    let (handle, slot, handles) := ((r.slots.find? name).getD {}).reset r.handles
    change fun r => { r with handles, slots := r.slots.insert name slot }
    return .guarded handle task

/-! ## The runner, proxies and handles -/

/-- Posts a task that runs a script. -/
def post (label : String) (delay : Nanos) (guard : Guard) (proxy : Option String) (script : S) :
    Act S Reply := do
  match proxy with
  | none => return .flag (← EventLoop.post (← guardTask guard (.scripted label script)) delay)
  | some name =>
    withNamed ((← residents).proxies.lastNumber? name) fun number => do
      return .flag (← postVia number (← guardTask guard (.scripted label script)) delay)

/-- Keeps a task that runs a script. -/
def hold (name label : String) (guard : Guard) (script : S) : Act S Reply := do
  let task ← guardTask guard (.scripted label script)
  change fun r => { r with heldTasks := r.heldTasks.insert name task }
  return .done

/-- Runs a task that was kept, once. -/
def runHeld (run : S → Act S Unit) (name : String) : Act S Reply := do
  withNamed ((← residents).heldTasks.find? name) fun task => do
    change fun r => { r with heldTasks := r.heldTasks.erase name }
    runTask run task
    return .done

/-- Makes a proxy, on the runner's own thread. -/
def newProxy (name : String) : Act S Reply := do
  let r ← residents
  if !r.onThread then return .runnerError (.wrongThread r.runnerName)
  change fun r => { r with proxies := (r.proxies.enroll name {}).2 }
  return .done

/-- Cancels the handle of a name. -/
def cancelHandle (name : String) : Act S Reply := do
  withNamed ((← residents).cancelHandles.find? name) fun handle => do
    change fun r => { r with handles := r.handles.cancel handle }
    return .done

/-- Empties the slot of a name. -/
def cancelSlot (name : String) : Act S Reply := do
  withNamed ((← residents).slots.find? name) fun slot => do
    let (slot, handles) := slot.cancel (← residents).handles
    change fun r => { r with handles, slots := r.slots.insert name slot }
    return .done

/-! ## Rate limiting -/

/-- Makes a limiter. It refers to its targets and does not need them to be there. -/
def newLimiter (name context client proxy : String) (interval : Nanos) : Act S Reply := do
  let r ← residents
  match r.contexts.lastNumber? context, r.clients.lastNumber? client,
      r.proxies.lastNumber? proxy with
  | some context, some client, some proxy =>
    withNamed (r.contexts.get? context) fun target => do
      let limiter : Limiter :=
        { id := target.id, proxy, interval, targets := some { context, client } }
      change fun r => { r with limiters := (r.limiters.enroll name limiter).2 }
      return .text target.id.name
  | _, _, _ => return .unknown

/-- Makes a registry; one of the same name is let go of. -/
def newRegistry (name proxy client : String) (interval : Nanos) : Act S Reply := do
  let r ← residents
  match r.proxies.lastNumber? proxy, r.clients.lastNumber? client with
  | some proxy, some client =>
    dropRegistry name
    let registry : LimiterRegistry := { proxy, client, interval }
    change fun r => { r with registries := r.registries.insert name registry }
    return .done
  | _, _ => return .unknown

/-! ## Scrollbars -/

/-- Changes a scrollbar. -/
def changeScrollbar (name : String) (f : Scrollbar → Scrollbar) : Act S Reply := do
  withNamed ((← residents).scrollbars.number? name) fun number => do
    change fun r => { r with scrollbars := r.scrollbars.update number f }
    return .done

/-- Brings a scrollbar up to date. -/
def animateNamed (name : String) (time : Option Nanos) : Act S Reply := do
  withNamed ((← residents).scrollbars.number? name) fun number => do
    let time := time.getD (← now)
    match ← animate number time with
    | none => return .unknown
    | some (shows, _) => return .flag shows

/-- Starts to fade a scrollbar out. -/
def startFade (name proxy : String) (interval : Nanos) (onFrame : S) : Act S Reply := do
  let r ← residents
  match r.scrollbars.number? name, r.proxies.lastNumber? proxy with
  | some scrollbar, some proxy =>
    return .flag (← postFrame { name, scrollbar, proxy, interval, onFrame } 0)
  | _, _ => return .unknown

/-! ## Stubs and managers -/

/-- A stub after an edit. -/
def editStub (edit : StubEdit S) (s : StubRecord S) : StubRecord S :=
  let fresh : SurfaceState :=
    ⟨edit.surfaceId.getD 0, edit.visible.getD false, edit.lastUsed.getD 0⟩
  let surface :=
    if edit.offscreen then none
    else match s.surface with
      | none => some fresh
      | some known =>
        if edit.surfaceId.isSome then some fresh
        else some { known with
          visible := edit.visible.getD known.visible
          lastUsed := edit.lastUsed.getD known.lastUsed }
  { s with
    surface
    requested := edit.requested.getD s.requested
    shares := edit.shares.getD s.shares
    sizeFrom := edit.sizeFrom <|> s.sizeFrom
    onRequest := edit.onRequest.getD s.onRequest
    onGrant := edit.onGrant.getD s.onGrant }

/-- The owner of a manager's stubs after an edit. -/
def editOwner (edit : OwnerEdit S) (o : StubOwner S) : StubOwner S :=
  { o with
    stubs := edit.stubs.getD o.stubs
    driverTotal := edit.driverTotal.getD o.driverTotal
    onEnumerate := edit.onEnumerate.getD o.onEnumerate }

/-- Makes a manager, on the runner's own thread, from a valid configuration. -/
def newManager (owner : StubOwner S) (source : ConfigSource) : Act S Reply := do
  match source.load with
  | .error e => return .configError e
  | .ok config =>
    let r ← residents
    if !r.onThread then return .runnerError (.wrongThread r.runnerName)
    let manager := Manager.ofConfig r.platform config
    let (proxy, proxies) := r.proxies.add {}
    let managers := (r.managers.enroll owner.name { manager, owner, proxy }).2
    change fun r => { r with proxies, managers }
    return .text manager.limits.platform.name

/-- Does something with the manager of a name, which is in use meanwhile. -/
def withManager (name : String) (f : Nat → Act S Reply) : Act S Reply := do
  withNamed ((← residents).managers.number? name) fun number =>
    holding [.manager number] (f number)

/-- Does something with the manager of a name and the group of another. -/
def withGroup (manager group : String) (f : Nat → GroupId → Act S Reply) : Act S Reply := do
  withNamed ((← residents).groupIds.find? group) fun id =>
    withManager manager fun number => f number id

/-- What a pass gave, shown with the names that the stubs have now; a stub without a name
is only counted. -/
def showStats (r : Residents S) (stats : Table StubId StubStat) : Reply :=
  .lastPass stats.size
    (r.stubs.names.entries.filterMap fun (name, id) => (stats.find? id).map (name, ·))

/-- Shows the latest pass of a manager, and keeps it if it is given a name. -/
def showLastPass (name : String) (keep : Option String) : Act S Reply :=
  withManager name fun number => do
    withNamed (← seat? number) fun seat => do
      let stats := seat.manager.lastStats
      if let some keep := keep then
        change fun r => { r with snapshots := r.snapshots.insert keep stats }
      return showStats (← residents) stats

/-- Opens a tracking group under a name, with a handle of its own if asked to. -/
def openGroup (manager group : String) (pid : Nat) (owned : Bool) : Act S Reply :=
  withManager manager fun number => do
    withNamed (← addGroup number pid) fun id => do
      change fun r => { r with groupIds := r.groupIds.insert group id }
      if owned then
        let former := (← residents).groupHandles.find? group
        change fun r => { r with
          groupHandles := r.groupHandles.insert group { manager := number, id, pid } }
        if let some former := former then releaseHandle former
        return .group id.name pid
      else return .group id.name id

/-- Lets go of the handle of a group. -/
def dropGroup (group : String) : Act S Reply := do
  match (← residents).groupHandles.find? group with
  | none => return .flag false
  | some handle =>
    change fun r => { r with groupHandles := r.groupHandles.erase group }
    releaseHandle handle
    return .flag true

end Host

namespace Step

open Host

/-- The note that a script leaves of a step. -/
def note (step : Step) (reply : Reply) : Act Script Unit := emit (.did [step] reply)

/-- **Does a step**, given a way to run scripts and fuel to pump the runner. -/
def perform (run : Script → Act Script Unit) (fuel : Nat) : Step → Act Script Reply
  | .offThread step => Host.offThread (perform run fuel step)
  | .runUntilIdle => do return .count (← EventLoop.runUntilIdle (runTask run) fuel)
  | .advance span => do return .count (← EventLoop.advance (runTask run) fuel span)
  | .runNext => do return .flag (← EventLoop.runNext (runTask run))
  | .clearPending => do
    modify fun h => { h with queue := h.queue.clear }
    return .done
  | .accept on => do
    modify fun h => { h with queue := { h.queue with accepting := on } }
    return .done
  | .runnerInfo => do
    let r ← residents
    return .runner r.runnerName r.onThread
  | .post label delay guard proxy script => Host.post label delay guard proxy script
  | .hold name label guard script => Host.hold name label guard script
  | .runHeld name => Host.runHeld run name
  | .newProxy name => Host.newProxy name
  | .shutdownProxy name => do
    withNamed ((← residents).proxies.lastNumber? name) fun number => do
      Host.shutdownProxy number
      return .done
  | .dropProxy name => do
    let known := ((← residents).proxies.number? name).isSome
    change fun r => { r with proxies := r.proxies.forget name }
    return .flag known
  | .cancel name => cancelHandle name
  | .newSlot name => do
    change fun r => { r with slots := r.slots.insert name {} }
    return .done
  | .cancelSlot name => Host.cancelSlot name
  | .newContext name id onWait => do
    change fun r => { r with contexts := (r.contexts.enroll name { name, id, onWait }).2 }
    return .done
  | .dropContext name => do
    let known := ((← residents).contexts.number? name).isSome
    change fun r => { r with contexts := r.contexts.forget name }
    return .flag known
  | .newClient name onLimit => do
    change fun r => { r with clients := (r.clients.enroll name { name, onLimit }).2 }
    return .done
  | .dropClient name => do
    let known := ((← residents).clients.number? name).isSome
    change fun r => { r with clients := r.clients.forget name }
    return .flag known
  | .newLimiter name context client proxy interval =>
    Host.newLimiter name context client proxy interval
  | .startLimiter name => do
    withNamed ((← residents).limiters.number? name) fun number => do
      Host.startLimiter number
      return .done
  | .stopLimiter name => do
    withNamed ((← residents).limiters.number? name) fun number => do
      Host.stopLimiter number
      return .done
  | .limitNow name => do
    withNamed ((← residents).limiters.number? name) fun number => do
      return .flag (← Host.limitNow run number)
  | .dropLimiter name => do
    let known := ((← residents).limiters.number? name).isSome
    change fun r => { r with limiters := r.limiters.forget name }
    return .flag known
  | .newRegistry name proxy client interval => Host.newRegistry name proxy client interval
  | .registryStart name context => do
    let r ← residents
    match r.registries.find? name, r.contexts.lastNumber? context with
    | some _, some context =>
      Host.registryStart name context
      return .done
    | _, _ => return .unknown
  | .registryStop name id => do
    withNamed ((← residents).registries.find? name) fun _ => do
      Host.registryStop name id
      return .done
  | .registryStopAll name => do
    withNamed ((← residents).registries.find? name) fun _ => do
      Host.registryStopAll name
      return .done
  | .registrySuspend name on => do
    withNamed ((← residents).registries.find? name) fun registry => do
      let registry := { registry with suspended := on }
      change fun r => { r with registries := r.registries.insert name registry }
      return .done
  | .registryIsActive name id => do
    let r ← residents
    withNamed (r.registries.find? name) fun registry => do
      return .flag (Host.registryIsActive r registry id)
  | .dropRegistry name => do
    let known := ((← residents).registries.find? name).isSome
    Host.dropRegistry name
    return .flag known
  | .newScrollbar name delay duration => do
    let bar : Scrollbar := { delay, duration }
    change fun r => { r with scrollbars := (r.scrollbars.enroll name bar).2 }
    return .done
  | .scroll name time => do
    let time := time.getD (← now)
    changeScrollbar name fun bar => bar.scroll time
  | .pinchBegin name => changeScrollbar name Scrollbar.pinchBegin
  | .pinchUpdate name => changeScrollbar name Scrollbar.pinchUpdate
  | .pinchEnd name time => do
    let time := time.getD (← now)
    changeScrollbar name fun bar => bar.pinchEnd time
  | .animate name time => animateNamed name time
  | .startFade name proxy interval onFrame => Host.startFade name proxy interval onFrame
  | .newStub name surface requested shares sizeFrom onRequest onGrant => do
    let stub : StubRecord Script :=
      { name, surface, requested, shares, sizeFrom, onRequest, onGrant }
    change fun r => { r with stubs := (r.stubs.enroll name stub).2 }
    return .done
  | .editStub name edit => do
    withNamed ((← residents).stubs.number? name) fun number => do
      change fun r => { r with stubs := r.stubs.update number (Host.editStub edit) }
      return .done
  | .newManager name config stubs driverTotal onEnumerate =>
    Host.newManager { name, stubs, driverTotal, onEnumerate } config
  | .editOwner name edit => do
    withNamed ((← residents).managers.lastNumber? name) fun number => do
      change fun r => { r with managers := r.managers.update number fun s =>
        { s with owner := Host.editOwner edit s.owner } }
      return .done
  | .manage name => withManager name fun number => do
    Host.manage run number
    return .done
  | .schedule name immediate => withManager name fun number => do
    Host.schedule number immediate
    return .done
  | .setWindows name count => withManager name fun number => do
    Host.setWindows number count
    return .done
  | .shutdownManager name => withManager name fun number => do
    Host.shutdownManager number
    return .done
  | .dropManager name => do
    let known := ((← residents).managers.number? name).isSome
    change fun r => { r with managers := r.managers.forget name }
    return .flag known
  | .usage name => withManager name fun number => do
    withNamed (← seat? number) fun seat => do
      return .usage (← Action.ofExcept seat.manager.usage)
  | .lastPass name keep => showLastPass name keep
  | .snapshot name => do
    let r ← residents
    withNamed (r.snapshots.find? name) fun stats => return showStats r stats
  | .summary name => withManager name fun number => do
    withNamed (← seat? number) fun seat => do
      return .summary seat.manager.passes seat.manager.overBudget
  | .addGroup manager group pid => openGroup manager group pid false
  | .createGroup manager group pid => openGroup manager group pid true
  | .dropGroup group => Host.dropGroup group
  | .removeGroup manager group => withGroup manager group fun number id => do
    Host.removeGroup number id
    return .done
  | .report manager group old new => withGroup manager group fun number id => do
    reportGroup number id old new
    return .done
  | .groupSize manager group => withGroup manager group fun number id => do
    withNamed (← seat? number) fun seat => do
      return .size (seat.manager.ledger.size? id)
  | .reportHandle group old new => do
    withNamed ((← residents).groupHandles.find? group) fun handle => do
      Host.reportHandle handle old new
      return .done
  | .handleSize group => do
    let r ← residents
    withNamed (r.groupHandles.find? group) fun handle => do
      return .size (some (Host.handleSize r handle))

/-- **Does a step.** Each level of steps within steps takes a unit of fuel. -/
def exec : Nat → Step → Act Script Reply
  | 0, _ => throw .outOfFuel
  | fuel + 1, step =>
    perform (fun script => script.forM fun inner => do note inner (← exec fuel inner)) fuel step

end Step

end Compositor
