import Compositor.Host.Basic

/-!
# Limiters on a host

A limiter's checks are posted through its proxy, each at a fixed time after the one
before it. A check that reaches both targets calls the context, then the client, and
then posts the next check; nothing in between asks again whether the limiter is still
active, so a context that stops its limiter stops it from the next check on.

A context or a client is there as long as it has its name or somebody is in the middle
of calling it.
-/

namespace Compositor.Host

variable {S : Type}

/-- Whether the targets of a limiter are still there. -/
def areAlive (r : Residents S) (t : LimiterTargets) : Bool :=
  (r.contexts.isNamed t.context || r.inUse.contains (.context t.context))
    && (r.clients.isNamed t.client || r.inUse.contains (.client t.client))

/-- Posts a check of a limiter. If the runner refuses it there will be none. -/
def postCheck (number : Nat) (delay : Nanos) : Act S Unit := do
  match (← residents).limiters.get? number with
  | none => return
  | some l => discard (postVia l.proxy (.check number) delay)

/-- Starts a limiter, if it can be started. -/
def startLimiter (number : Nat) : Act S Unit := do
  match ((← residents).limiters.get? number).bind Limiter.start? with
  | none => return
  | some l =>
    change fun r => { r with limiters := r.limiters.update number fun _ => l }
    postCheck number 0

/-- Stops a limiter. -/
def stopLimiter (number : Nat) : Act S Unit :=
  change fun r => { r with limiters := r.limiters.update number Limiter.stop }

/-- Makes the context wait, and tells the client. -/
def callTargets (run : S → Act S Unit) (t : LimiterTargets) : Act S Unit :=
  holding [.context t.context, .client t.client] do
    if let some context := (← residents).contexts.get? t.context then
      emit (.wait context.name)
      run context.onWait
    if let some client := (← residents).clients.get? t.client then
      emit (.limit client.name)
      run client.onLimit

/-- Throttles once, and answers whether both targets were reached. A limiter that finds
one of them gone stops. -/
def limitNow (run : S → Act S Unit) (number : Nat) : Act S Bool := do
  let r ← residents
  match r.limiters.get? number with
  | none => return false
  | some l =>
    match l.check (areAlive r) with
    | .reached targets =>
      callTargets run targets
      return true
    | .orphaned =>
      stopLimiter number
      return false
    | .inactive => return false

/-- Runs a posted check. -/
def runCheck (run : S → Act S Unit) (number : Nat) : Act S Unit := do
  if ← limitNow run number then
    if let some l := (← residents).limiters.get? number then
      postCheck number l.interval

/-- Whether a limiter is active and can still post checks. -/
def limiterIsActive (r : Residents S) (number : Nat) : Bool :=
  match r.limiters.get? number with
  | none => false
  | some l => l.phase = .active && !((r.proxies.get? l.proxy).map Proxy.shutDown).getD true

/-! ## Registries -/

/-- Starts the limiter of a context, unless the registry is suspended. A limiter that has
stopped by itself is replaced; one that is there is started again, which changes
nothing if it is active. -/
def registryStart (name : String) (context : Nat) : Act S Unit := do
  let r ← residents
  match r.registries.find? name, r.contexts.get? context with
  | some registry, some target =>
    if registry.suspended then return
    let stopped :=
      match (registry.find? target.id).bind r.limiters.get? with
      | some l => l.isStopped
      | none => true
    let kept := if stopped then none else registry.find? target.id
    match kept with
    | some number => startLimiter number
    | none =>
      let (number, limiters) := r.limiters.add (registry.newLimiter target.id context)
      let registry := registry.insert target.id number
      change fun r => { r with limiters, registries := r.registries.insert name registry }
      startLimiter number
  | _, _ => return

/-- Stops the limiter under a number, and forgets it. -/
def registryStop (name : String) (id : ContextId) : Act S Unit := do
  match (← residents).registries.find? name with
  | none => return
  | some registry =>
    match registry.find? id with
    | none => return
    | some number =>
      change fun r => { r with registries := r.registries.insert name (registry.erase id) }
      stopLimiter number

/-- Stops and forgets every limiter. -/
def registryStopAll (name : String) : Act S Unit := do
  match (← residents).registries.find? name with
  | none => return
  | some registry => registry.limiters.keys.forM (registryStop name)

/-- Lets go of a registry, which stops every limiter in it. -/
def dropRegistry (name : String) : Act S Unit := do
  registryStopAll name
  change fun r => { r with registries := r.registries.erase name }

/-- Whether the limiter under a number is active. -/
def registryIsActive (r : Residents S) (registry : LimiterRegistry) (id : ContextId) : Bool :=
  match registry.find? id with
  | none => false
  | some number => limiterIsActive r number

end Compositor.Host
