import Compositor.Table
import Compositor.Json.Value

/-!
# Memory usage

A summary of the manager's books for whoever wants to show it: the memory that each
process holds, the sum of it now and at its highest, what there is to divide, and how
the latest pass divided it. In JSON the processes stand in the order of their numbers.
-/

namespace Compositor

/-- How the latest pass divided the budget. -/
structure Breakdown where
  visibleStubs : Nat := 0
  hiddenStubs : Nat := 0
  offscreenStubs : Nat := 0
  visibleBytes : Nat := 0
  hiddenBytes : Nat := 0
  deriving DecidableEq, Repr, Inhabited

/-- What one process holds in its tracking groups. -/
structure ProcessUsage where
  bytes : Nat := 0
  groups : Nat := 0
  deriving DecidableEq, Repr

/-- The summary. -/
structure Usage where
  processes : Table Nat ProcessUsage := ∅
  allocated : Nat := 0
  historicalMax : Nat := 0
  available : Nat := 0
  lastPass : Breakdown := {}
  deriving Repr

/-- The record that a breakdown is in JSON. -/
def Breakdown.toJson (b : Breakdown) : Json.Value :=
  .ofFields [("visible_stubs", .nat b.visibleStubs), ("hidden_stubs", .nat b.hiddenStubs),
    ("offscreen_stubs", .nat b.offscreenStubs), ("visible_bytes", .nat b.visibleBytes),
    ("hidden_bytes", .nat b.hiddenBytes)]

/-- The record that the usage of a process is in JSON. -/
def ProcessUsage.toJson (p : ProcessUsage) : Json.Value :=
  .ofFields [("video_memory", .nat p.bytes), ("tracking_groups", .nat p.groups)]

namespace Usage

/-- The processes by number. -/
def byProcess (u : Usage) : List (Nat × ProcessUsage) :=
  u.processes.entries.mergeSort fun a b => decide (a.1 ≤ b.1)

/-- The record that the summary is in JSON. -/
def toJson (u : Usage) : Json.Value :=
  .ofFields [
    ("process_map", .ofFields (u.byProcess.map fun (pid, p) => (toString pid, p.toJson))),
    ("bytes_allocated", .nat u.allocated),
    ("bytes_allocated_historical_max", .nat u.historicalMax),
    ("bytes_available", .nat u.available),
    ("last_manage", u.lastPass.toJson)]

end Usage

end Compositor
