import Compositor.Host.Roster
import Compositor.Manager.State
import Compositor.Scrollbar
import Compositor.Task.Loop
import Compositor.Task.Proxy
import Compositor.Throttle.Registry

/-!
# Hosts

A host is one task runner in virtual time and everything that lives on it: proxies,
limiters, scrollbars, managers and the stubs they serve. The objects of a host call
back into whoever embeds it – a context is made to wait, a stub is asked what it would
like, a task runs – and such a callback may do anything that an embedder may do,
including what it is being called about.

What a callback does is a *script*. This module and those beside it do not look into
scripts: their type is a parameter, and whatever calls back is given a way to run one.
So whatever is proved about them holds for callbacks of every kind.
-/

namespace Compositor

/-- What a step of an embedder answers. -/
inductive Reply where
  | done
  | flag (b : Bool)
  | count (n : Nat)
  | size (bytes : Option Nat)
  | text (s : String)
  | runner (name : String) (onThread : Bool)
  | group (name : String) (number : Nat)
  | summary (passes overBudget : Nat)
  | usage (u : Usage)
  /-- What the latest pass gave: to how many stubs, and to each by name. -/
  | lastPass (stubs : Nat) (stats : List (String × StubStat))
  | configError (e : ConfigError)
  | runnerError (e : RunnerError)
  | fault (f : Fault)
  /-- Something was named that is not there. -/
  | unknown

/-- What an observer of a host gets to see. -/
inductive Event (S : Type) where
  /-- A task ran. -/
  | run (label : String) (now : Nanos)
  /-- A context was made to wait. -/
  | wait (context : String)
  /-- A client was told that a context was made to wait. -/
  | limit (client : String)
  /-- A scrollbar was drawn anew. -/
  | fade (scrollbar : String) (opacity : Float32) (now : Nanos)
  /-- A stub was asked what it would like. -/
  | request (stub : String)
  /-- A stub was granted memory. -/
  | grant (stub : String) (allocation : Allocation)
  /-- A manager asked for its stubs. -/
  | enumerate (manager : String)
  /-- Part of a script was done, and this came of it. -/
  | did (part : S) (reply : Reply)

/-- A context that can be made to wait. -/
structure RateContext (S : Type) where
  name : String
  id : ContextId
  onWait : S

/-- One who is told of it. -/
structure RateClient (S : Type) where
  name : String
  onLimit : S

/-- A stub as its owner keeps it. -/
structure StubRecord (S : Type) where
  name : String
  surface : Option SurfaceState
  requested : Nat
  /-- The names of the stubs that it shares a group with. -/
  shares : List String
  /-- The tracking group whose size it would like while the group is held, instead of a
  fixed amount. -/
  sizeFrom : Option String
  onRequest : S
  onGrant : S
  /-- What it was granted last. -/
  allocation : Allocation := .empty

/-- The owner of a manager's stubs. -/
structure StubOwner (S : Type) where
  name : String
  /-- The names of the stubs, in the order in which they are enumerated. -/
  stubs : List String
  /-- The memory of the device, if the driver knows. -/
  driverTotal : Option Nat
  onEnumerate : S

/-- A manager with those it deals with. -/
structure ManagerSeat (S : Type) where
  manager : Manager
  owner : StubOwner S
  /-- The proxy through which passes are posted. -/
  proxy : Nat

/-- A tracking group that is closed when its holder lets go of it. -/
structure GroupHandle where
  manager : Nat
  id : GroupId
  pid : Nat

/-- A scrollbar on its way out. -/
structure Fade (S : Type) where
  /-- What the observer calls it. -/
  name : String
  scrollbar : Nat
  proxy : Nat
  interval : Nanos
  onFrame : S

/-- What waits in the queue of a host. -/
inductive Task (S : Type) where
  /-- Reports a label and runs a script. -/
  | scripted (label : String) (script : S)
  /-- Runs a task unless its handle is canceled. -/
  | guarded (handle : Handle) (task : Task S)
  /-- Runs a task unless the proxy was shut down. -/
  | proxied (proxy : Nat) (task : Task S)
  /-- A check of a limiter. -/
  | check (limiter : Nat)
  /-- A pass of a manager. -/
  | pass (manager : Nat)
  /-- A frame of a fade. -/
  | frame (fade : Fade S)

/-- Whether the task goes through a proxy. -/
def Task.mentions {S : Type} (proxy : Nat) : Task S → Bool
  | .guarded _ task => task.mentions proxy
  | .proxied p task => p == proxy || task.mentions proxy
  | _ => false

/-- An object that somebody is in the middle of using. -/
inductive InUse where
  | context (number : Nat)
  | client (number : Nat)
  | manager (number : Nat)
  deriving DecidableEq, Repr

/-- What lives on a host. -/
structure Residents (S : Type) where
  runnerName : String := "main"
  /-- The platform family of the device. -/
  platform : Platform := .desktop
  /-- Whether the caller is on the runner's own thread. -/
  onThread : Bool := true
  /-- What was to be seen so far, the latest first. -/
  events : List (Event S) := []
  handles : Handles := {}
  inUse : List InUse := []
  proxies : Roster Proxy := {}
  cancelHandles : Table String Handle := ∅
  slots : Table String Slot := ∅
  heldTasks : Table String (Task S) := ∅
  contexts : Roster (RateContext S) := {}
  clients : Roster (RateClient S) := {}
  limiters : Roster Limiter := {}
  registries : Table String LimiterRegistry := ∅
  scrollbars : Roster Scrollbar := {}
  stubs : Roster (StubRecord S) := {}
  managers : Roster (ManagerSeat S) := {}
  groupIds : Table String GroupId := ∅
  groupHandles : Table String GroupHandle := ∅
  /-- What passes gave to each stub, by the names under which it was kept. -/
  snapshots : Table String (Table StubId StubStat) := ∅

/-- A host: a task runner and what lives on it. -/
abbrev Host (S : Type) : Type := EventLoop (Task S) (Residents S)

namespace Host

variable {S : Type}

/-- An action on a host. -/
abbrev Act (S α : Type) : Type := EventLoop.Act (Task S) (Residents S) α

/-- A new host. -/
def new (runnerName : String) (platform : Platform) : Host S :=
  { queue := {}, state := { runnerName, platform } }

/-- What lives on the host. -/
def residents : Act S (Residents S) := do return (← get).state

/-- Changes what lives on the host. -/
def change (f : Residents S → Residents S) : Act S Unit :=
  modify fun h => { h with state := f h.state }

/-- The time. -/
def now : Act S Nanos := do return (← get).queue.now

/-- Lets the observer see something. -/
def emit (e : Event S) : Act S Unit := change fun r => { r with events := e :: r.events }

/-- Faults off the runner's own thread. -/
def requireThread (f : Fault) : Act S Unit := do
  unless (← residents).onThread do Action.fail f

/-- Does an action while some objects are in use. -/
def holding {α : Type} (objects : List InUse) (a : Act S α) : Act S α :=
  Action.around
    (fun h => { h with state := { h.state with inUse := objects ++ h.state.inUse } })
    (fun h => { h with state := { h.state with inUse := h.state.inUse.drop objects.length } })
    a

/-- Does an action on another thread. -/
def offThread {α : Type} (a : Act S α) : Act S α := do
  let before := (← residents).onThread
  Action.around
    (fun h => { h with state := { h.state with onThread := false } })
    (fun h => { h with state := { h.state with onThread := before } })
    a

/-- Posts a task through a proxy, and answers whether the runner accepted it. -/
def postVia (proxy : Nat) (task : Task S) (delay : Nanos) : Act S Bool :=
  EventLoop.post (.proxied proxy task) delay

/-- Shuts a proxy down. -/
def shutdownProxy (proxy : Nat) : Act S Unit := do
  let r ← residents
  match r.proxies.get? proxy with
  | none => return
  | some p =>
    let (outcome, p) := p.shutdown r.onThread
    change fun r => { r with proxies := r.proxies.update proxy fun _ => p }
    Action.ofExcept outcome

end Host

end Compositor
