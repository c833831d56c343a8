import Compositor.Table
import Compositor.Throttle.Limiter

/-!
# Registries of rate limiters

A host keeps its limiters in a registry, at most one under each number of a context.
While the registry is suspended it ignores requests to start one. Limiters are held by
reference, because the checks that are still posted hold them too.
-/

namespace Compositor

/-- The limiters of a host, by the number of the context. -/
structure LimiterRegistry where
  proxy : Nat
  client : Nat
  interval : Nanos
  limiters : Table ContextId Nat := ∅
  suspended : Bool := false
  deriving Repr

namespace LimiterRegistry

/-- The limiter under a number. -/
def find? (r : LimiterRegistry) (id : ContextId) : Option Nat := r.limiters.find? id

/-- Puts a limiter under a number. -/
def insert (r : LimiterRegistry) (id : ContextId) (limiter : Nat) : LimiterRegistry :=
  { r with limiters := r.limiters.insert id limiter }

/-- Forgets the limiter under a number. -/
def erase (r : LimiterRegistry) (id : ContextId) : LimiterRegistry :=
  { r with limiters := r.limiters.erase id }

/-- The number of limiters. -/
def size (r : LimiterRegistry) : Nat := r.limiters.size

/-- A limiter as the registry makes it. -/
def newLimiter (r : LimiterRegistry) (id : ContextId) (context : Nat) : Limiter where
  id
  proxy := r.proxy
  interval := r.interval
  targets := some { context, client := r.client }

end LimiterRegistry

end Compositor
