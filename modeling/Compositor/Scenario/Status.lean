import Compositor.Host.Limiting
import Compositor.Host.Managing
import Compositor.Scenario.Perform

/-!
# What a scenario shows

After each step an observer sees what the step answered, what happened meanwhile, and
the status of everything that has a name.

A proxy is still there while somebody refers to it: its name, a limiter or a registry
that posts through it, or a task in the queue. The observer remembers the name of a
proxy that was let go of, and can tell whether it is still there.
-/

namespace Compositor

/-- The status of a proxy. -/
inductive ProxyStatus where
  | gone
  | there (shutDown : Bool) (dropped : Nat)
  deriving DecidableEq, Repr

/-- The status of a manager. -/
structure ManagerStatus where
  scheduled : Bool
  current : Nat
  historicalMax : Nat
  available : Nat
  groups : Nat
  deriving DecidableEq, Repr

/-- The status of everything on a host that has a name. -/
structure Status where
  now : Nanos
  pending : Nat
  next : Option Nanos
  proxies : List (String × ProxyStatus)
  /-- Whether each handle is canceled. -/
  handles : List (String × Bool)
  /-- Whether a task of each slot waits. -/
  slots : List (String × Bool)
  /-- Whether each limiter is active, and whether it has stopped. -/
  limiters : List (String × Bool × Bool)
  /-- The number of limiters in each registry. -/
  registries : List (String × Nat)
  /-- The opacity of each scrollbar, and whether it is pinched. -/
  scrollbars : List (String × Float32 × Bool)
  managers : List (String × ManagerStatus)

namespace Host

variable {S : Type}

/-- Whether somebody refers to a proxy. -/
def proxyIsThere (h : Host S) (number : Nat) : Bool :=
  let r := h.state
  r.proxies.isNamed number
    || r.limiters.named.any (fun (_, l) => l.proxy == number)
    || r.registries.values.any (fun g => g.proxy == number)
    || h.queue.pending.any (fun p => p.task.mentions number)

/-- The status of a manager. -/
def managerStatus (r : Residents S) (m : Manager) : ManagerStatus where
  scheduled := m.isScheduled r.handles
  current := m.ledger.current
  historicalMax := m.ledger.historicalMax
  available := m.available
  groups := m.ledger.groups.size

/-- The status of a host. -/
def status (h : Host S) : Status :=
  let r := h.state
  let proxy := fun ((name, number) : String × Nat) =>
    match r.proxies.get? number with
    | some p =>
      (name, if h.proxyIsThere number then ProxyStatus.there p.shutDown p.dropped else .gone)
    | none => (name, .gone)
  { now := h.queue.now
    pending := h.queue.size
    next := h.queue.nextDelay
    proxies := (r.proxies.names.entries ++ r.proxies.released.entries).map proxy
    handles := r.cancelHandles.entries.map fun (name, x) => (name, r.handles.isCanceled x)
    slots := r.slots.entries.map fun (name, x) => (name, x.isPending r.handles)
    limiters := r.limiters.names.entries.map fun (name, number) =>
      (name, limiterIsActive r number, ((r.limiters.get? number).map Limiter.isStopped).getD true)
    registries := r.registries.entries.map fun (name, x) => (name, x.size)
    scrollbars := r.scrollbars.named.map fun (name, x) => (name, x.opacity, x.pinching)
    managers := r.managers.named.map fun (name, x) => (name, managerStatus r x.manager) }

end Host

/-- What an observer sees after a step. -/
structure Observation where
  reply : Reply
  /-- What happened since the step before, the earliest first. -/
  events : List (Event Script)
  status : Status

namespace Step

/-- Does a step at the top of a scenario. A fault is what it answers then; the answer is
absent only if the fuel was too little. -/
def observe (fuel : Nat) (step : Step) (host : Host Script) :
    Option Observation × Host Script :=
  let (outcome, host) := (exec fuel step).on host
  let events := host.state.events.reverse
  let host := { host with state := { host.state with events := [] } }
  match outcome with
  | .ok reply => (some { reply, events, status := host.status }, host)
  | .error (.fault fault) => (some { reply := .fault fault, events, status := host.status }, host)
  | .error .outOfFuel => (none, host)

/-- Does the steps of a scenario one after the other, as long as there is fuel. -/
def observeAll (fuel : Nat) : Script → Host Script → List Observation
  | [], _ => []
  | step :: rest, host =>
    match observe fuel step host with
    | (some seen, host) => seen :: observeAll fuel rest host
    | (none, _) => []

end Step

end Compositor
