import Compositor.Checked
import Compositor.Table
import Compositor.Stub
import Compositor.Budget.Bounds

/-!
# Plans

A plan divides the budget among the stubs of one pass. Stubs with a surface are served
in order of importance, each getting what it may have or what is left, whichever is
less; a hidden one may have something only while its rank is below the limit of
surfaces that keep their frame. Stubs without a surface are not charged: each
follows the most important surface that it shares a group with.

The plan answers in the order in which the stubs were given, whatever the order in
which they were served.
-/

namespace Compositor

/-- A stub in the queue for memory. -/
structure Contender where
  /-- Its place in the list of stubs. -/
  index : Nat
  stub : StubView
  surface : SurfaceState
  deriving DecidableEq, Repr

namespace Contender

/-- The stubs of a list that have a surface, with their places. -/
def ofStubs (stubs : List StubView) : List Contender :=
  stubs.zipIdx.filterMap fun (stub, index) => stub.surface.map fun surface => ⟨index, stub, surface⟩

/-- **The order of service**: by importance, and equally important ones as they came. -/
def serving (stubs : List StubView) : List Contender :=
  (ofStubs stubs).mergeSort fun a b => a.surface.le b.surface

theorem serving_perm (stubs : List StubView) : (serving stubs).Perm (ofStubs stubs) :=
  List.mergeSort_perm _ _

end Contender

/-- What a plan gives to one stub. -/
structure Assignment where
  stub : StubId
  visible : Bool
  allocation : Allocation
  /-- For a stub without a surface: the stub whose memory it lives on. -/
  sharesWith : Option StubId
  deriving DecidableEq, Repr

/-- A contender that was served. -/
structure Grant where
  index : Nat
  assignment : Assignment
  deriving DecidableEq, Repr

namespace Bounds

/-- Whether a contender of some rank is asked what it would like. -/
def asks (b : Bounds) (rank : Nat) (surface : SurfaceState) : Bool :=
  surface.visible || rank < b.softLimit

/-- What a contender of some rank may have, if there is enough. -/
def demand (b : Bounds) (rank : Nat) (c : Contender) : Nat :=
  if c.surface.visible then b.visibleDemand c.stub.requested
  else if rank < b.softLimit then min c.stub.requested b.hiddenAllowance
  else 0

section Demand

variable {b : Bounds} {rank : Nat} {c : Contender}

/-- A visible stub demands what it would like, within the floor and the ceiling. -/
theorem demand_of_visible (h : c.surface.visible = true) :
    b.demand rank c
      = max b.minStub (min (b.wanted c.stub.requested) (max b.maxStub b.minStub)) :=
  if_pos h

/-- A hidden stub that keeps its frame demands what it asks for, up to the allowance. -/
theorem demand_of_hidden (h : c.surface.visible = false) (hrank : rank < b.softLimit) :
    b.demand rank c = min c.stub.requested b.hiddenAllowance := by
  rw [demand, h, if_neg Bool.false_ne_true, if_pos hrank]

/-- A hidden stub that keeps no frame demands nothing. -/
theorem demand_of_hidden_past (h : c.surface.visible = false) (hrank : b.softLimit ≤ rank) :
    b.demand rank c = 0 := by
  rw [demand, h, if_neg Bool.false_ne_true, if_neg (Nat.not_lt.2 hrank)]

end Demand

/-- What a contender of some rank is granted when `remaining` bytes are left. -/
def grant (b : Bounds) (rank remaining : Nat) (c : Contender) : Grant where
  index := c.index
  assignment := {
    stub := c.stub.id
    visible := c.surface.visible
    allocation := {
      bytes := min (b.demand rank c) remaining
      backbuffer := c.surface.visible
      frontbuffer := c.surface.visible || rank < b.softLimit }
    sharesWith := none }

end Bounds

/-- The state of service: what is left, what was charged, and the grants so far. -/
structure Service where
  remaining : Nat
  visibleBytes : Nat := 0
  hiddenBytes : Nat := 0
  /-- In the order of service, so that their number is the rank of the next contender. -/
  grants : List Grant := []
  deriving DecidableEq, Repr

namespace Service

/-- Serves one more contender. -/
def serve (b : Bounds) (s : Service) (c : Contender) : Except Fault Service := do
  let granted := b.grant s.grants.length s.remaining c
  let bytes := granted.assignment.allocation.bytes
  let remaining ← Word.sub s.remaining bytes
  if c.surface.visible then
    return { s with
      remaining, visibleBytes := ← Word.add s.visibleBytes bytes, grants := s.grants ++ [granted] }
  else
    return { s with
      remaining, hiddenBytes := ← Word.add s.hiddenBytes bytes, grants := s.grants ++ [granted] }

end Service

/-- How a budget is divided among a list of stubs. -/
structure Plan where
  /-- In the order in which the stubs were given. -/
  assignments : List Assignment := []
  visibleBytes : Nat := 0
  hiddenBytes : Nat := 0
  visibleStubs : Nat := 0
  hiddenStubs : Nat := 0
  offscreenStubs : Nat := 0
  deriving DecidableEq, Repr

namespace Plan

/-- What a stub without a surface gets: what the first grant in its group says, and
nothing if there is none. -/
def follow (grants : List Grant) (stub : StubView) : Assignment :=
  match grants.find? fun g => stub.shares.contains g.assignment.stub with
  | some owner => {
      stub := stub.id
      visible := owner.assignment.visible
      allocation := owner.assignment.allocation
      sharesWith := some owner.assignment.stub }
  | none => { stub := stub.id, visible := false, allocation := .empty, sharesWith := none }

/-- What the stub at some place gets. -/
def assign (grants : List Grant) (stub : StubView) (index : Nat) : Option Assignment :=
  match stub.surface with
  | some _ => (grants.find? fun g => g.index = index).map Grant.assignment
  | none => some (follow grants stub)

/-- **The plan for a list of stubs.** -/
def ofStubs (bounds : Bounds) (stubs : List StubView) : Except Fault Plan := do
  let contenders := Contender.serving stubs
  let service ← contenders.foldlM (Service.serve bounds) { remaining := bounds.total }
  return {
    assignments := stubs.zipIdx.filterMap fun (stub, index) => assign service.grants stub index
    visibleBytes := service.visibleBytes
    hiddenBytes := service.hiddenBytes
    visibleStubs := contenders.countP fun c => c.surface.visible
    hiddenStubs := contenders.countP fun c => !c.surface.visible
    offscreenStubs := stubs.countP fun s => s.surface.isNone }

/-- The bytes charged against the budget. -/
def chargedBytes (p : Plan) : Except Fault Nat := Word.add p.visibleBytes p.hiddenBytes

/-- What each stub was given, by stub; of two entries for one stub the later counts. -/
def stats (p : Plan) : Table StubId StubStat :=
  .ofList (p.assignments.map fun a => (a.stub, ⟨a.visible, a.allocation⟩))

end Plan

end Compositor
