import Compositor.Host.Basic

/-!
# Scenarios

A scenario is a list of steps, each something that an embedder may do to a host: post
a task, start a limiter, ask a manager for a pass. What calls back from a host carries
a scenario of its own, so a step may be done from inside a task or while a stub is asked
what it would like. Objects are referred to by names that the scenario gives them. Proxies,
contexts, clients and the owners of stubs may be referred to by a name that was given up;
everything else has to have its name.
-/

namespace Compositor

/-- What may stop a posted task from running. -/
inductive Guard where
  | none
  /-- A handle of its own, under a name. -/
  | handle (name : String)
  /-- The slot of a name. -/
  | slot (name : String)

/-- What the embedder changes about a stub; what is absent stays as it is. -/
structure StubEdit (S : Type) where
  /-- The stub has no surface any more. -/
  offscreen : Bool := false
  surfaceId : Option Int32 := none
  visible : Option Bool := none
  lastUsed : Option Nanos := none
  requested : Option Nat := none
  shares : Option (List String) := none
  sizeFrom : Option String := none
  onRequest : Option S := none
  onGrant : Option S := none

/-- What the embedder changes about the owner of a manager's stubs. -/
structure OwnerEdit (S : Type) where
  stubs : Option (List String) := none
  /-- The memory of the device; inside, `none` if the driver does not know. -/
  driverTotal : Option (Option Nat) := none
  onEnumerate : Option S := none

/-- Where a manager's configuration comes from. -/
inductive ConfigSource where
  | fields (config : Config)
  | text (text : String)

/-- The configuration, if it is a valid one. -/
def ConfigSource.load : ConfigSource → Except ConfigError Config
  | .fields config => config.validate.map fun _ => config
  | .text written => Config.ofText written

/-- One step of a scenario. -/
inductive Step where
  /-- Does a step on another thread. -/
  | offThread (step : Step)
  -- the runner
  | runUntilIdle
  | advance (span : Nanos)
  | runNext
  | clearPending
  | accept (on : Bool)
  | runnerInfo
  | post (label : String) (delay : Nanos) (guard : Guard) (proxy : Option String)
      (script : List Step)
  /-- Keeps a task under a name instead of posting it. -/
  | hold (name label : String) (guard : Guard) (script : List Step)
  | runHeld (name : String)
  -- proxies, handles and slots
  | newProxy (name : String)
  | shutdownProxy (name : String)
  | dropProxy (name : String)
  | cancel (name : String)
  | newSlot (name : String)
  | cancelSlot (name : String)
  -- rate limiting
  | newContext (name : String) (id : ContextId) (onWait : List Step)
  | dropContext (name : String)
  | newClient (name : String) (onLimit : List Step)
  | dropClient (name : String)
  | newLimiter (name context client proxy : String) (interval : Nanos)
  | startLimiter (name : String)
  | stopLimiter (name : String)
  | limitNow (name : String)
  | dropLimiter (name : String)
  | newRegistry (name proxy client : String) (interval : Nanos)
  | registryStart (name context : String)
  | registryStop (name : String) (id : ContextId)
  | registryStopAll (name : String)
  | registrySuspend (name : String) (on : Bool)
  | registryIsActive (name : String) (id : ContextId)
  | dropRegistry (name : String)
  -- scrollbars
  | newScrollbar (name : String) (delay duration : Nanos)
  | scroll (name : String) (time : Option Nanos)
  | pinchBegin (name : String)
  | pinchUpdate (name : String)
  | pinchEnd (name : String) (time : Option Nanos)
  | animate (name : String) (time : Option Nanos)
  | startFade (name proxy : String) (interval : Nanos) (onFrame : List Step)
  -- stubs and managers
  | newStub (name : String) (surface : Option SurfaceState) (requested : Nat)
      (shares : List String) (sizeFrom : Option String) (onRequest onGrant : List Step)
  | editStub (name : String) (edit : StubEdit (List Step))
  | newManager (name : String) (config : ConfigSource) (stubs : List String)
      (driverTotal : Option Nat) (onEnumerate : List Step)
  | editOwner (name : String) (edit : OwnerEdit (List Step))
  | manage (name : String)
  | schedule (name : String) (immediate : Bool)
  | setWindows (name : String) (count : Option Nat)
  | shutdownManager (name : String)
  | dropManager (name : String)
  | usage (name : String)
  | lastPass (name : String) (keep : Option String)
  | snapshot (name : String)
  | summary (name : String)
  -- tracking groups
  | addGroup (manager group : String) (pid : Nat)
  | createGroup (manager group : String) (pid : Nat)
  | dropGroup (group : String)
  | removeGroup (manager group : String)
  | report (manager group : String) (old new : Nat)
  | groupSize (manager group : String)
  | reportHandle (group : String) (old new : Nat)
  | handleSize (group : String)
  deriving Inhabited

/-- A list of steps. -/
abbrev Script : Type := List Step

end Compositor
