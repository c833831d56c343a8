import Compositor.Span

/-!
# Rate limiters

A context that draws faster than its frames are consumed is throttled by a limiter:
while the limiter is active it checks at regular times, and at each check makes the
context wait and tells the limiter's client. It owns neither. If it finds that one of
them is gone it stops by itself, and a limiter that has stopped knows neither any more
and never starts again.

The definitions here are the limiter's own transitions. Who posts the checks, and what
context and client do when they are called, is the business of its host.
-/

namespace Compositor

/-- The number of a context. -/
abbrev ContextId := Nat

/-- The name of a context. -/
def ContextId.name (id : ContextId) : String := "ctx#" ++ toString id

/-- The time between checks if nobody says otherwise: a frame at 60 Hz. -/
def defaultCheckInterval : Nanos := 16666000

/-- Where a limiter is in its life. -/
inductive LimiterPhase where
  | idle
  | active
  | stopped
  deriving DecidableEq, Repr

/-- Whom a limiter throttles and whom it tells, by reference. -/
structure LimiterTargets where
  context : Nat
  client : Nat
  deriving DecidableEq, Repr

/-- A limiter. -/
structure Limiter where
  id : ContextId
  /-- The proxy through which checks are posted. -/
  proxy : Nat
  interval : Nanos
  phase : LimiterPhase := .idle
  /-- Absent once forgotten. -/
  targets : Option LimiterTargets
  deriving DecidableEq, Repr

namespace Limiter

/-- Whether the limiter has stopped. -/
def isStopped (l : Limiter) : Bool := l.phase = .stopped

/-- The limiter after it was stopped. -/
def stop (l : Limiter) : Limiter := { l with phase := .stopped, targets := none }

/-- The limiter after it was started, if it could be: it is the first start, and it has
not been stopped. -/
def start? (l : Limiter) : Option Limiter :=
  if l.phase = .idle then some { l with phase := .active } else none

/-- What a check finds. -/
inductive Check where
  /-- The limiter is not active. -/
  | inactive
  /-- One of its targets is gone. -/
  | orphaned
  /-- Both targets can be called. -/
  | reached (targets : LimiterTargets)
  deriving DecidableEq, Repr

/-- What a check finds, when `alive` tells which targets are still there. -/
def check (l : Limiter) (alive : LimiterTargets → Bool) : Check :=
  if l.phase = .active then
    match l.targets with
    | some targets => if alive targets then .reached targets else .orphaned
    | none => .orphaned
  else .inactive

theorem check_of_ne_active {l : Limiter} (h : l.phase ≠ .active)
    (alive : LimiterTargets → Bool) : l.check alive = .inactive :=
  if_neg h

end Limiter

end Compositor
