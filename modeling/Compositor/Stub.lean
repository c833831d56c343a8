import Compositor.Span
import Compositor.Json.Value

/-!
# Stubs

A *stub* stands for one connection that draws with the device. Most draw to a
surface of their own, which is visible or hidden and was last used at some time; the
others draw off the screen and live on the memory of a stub that they share a group
with.

Surfaces are served in order of importance: the visible before the hidden, and among
those the one used last first. Surfaces that agree in both are equally important, and
whoever sorts by importance leaves them in the order in which they came.
-/

namespace Compositor

/-- The number under which a stub is known. -/
abbrev StubId := Nat

/-- The name of a stub. -/
def StubId.name (id : StubId) : String := "stub#" ++ toString id

/-- The numbers that the given number of stubs get, in the order in which they register:
each is the next, and the first is one. -/
def StubId.issued (count : Nat) : List StubId := List.range' 1 count

/-- What is known of a stub's surface. -/
structure SurfaceState where
  surfaceId : Int32
  visible : Bool
  lastUsed : Nanos
  deriving DecidableEq, Repr

namespace SurfaceState

/-- The order of service: `lt` if the first is the more important one. -/
def order (a b : SurfaceState) : Ordering :=
  (compare b.visible.toNat a.visible.toNat).then (compare b.lastUsed a.lastUsed)

/-- Whether the second may be served after the first. -/
def le (a b : SurfaceState) : Bool := (a.order b).isLE

theorem le_iff {a b : SurfaceState} :
    a.le b = true ↔
      b.visible.toNat < a.visible.toNat ∨
        (b.visible = a.visible ∧ b.lastUsed ≤ a.lastUsed) := by
  have hb : b.visible = a.visible ↔ b.visible.toNat = a.visible.toNat := by
    cases a.visible <;> cases b.visible <;> decide
  rw [hb]
  simp only [le, order, Ordering.isLE_then_iff_or, Nat.isLE_compare, Nat.compare_eq_lt,
    Nat.compare_eq_eq]

end SurfaceState

/-- What a stub is granted: bytes, and whether to keep the buffer it draws to and the
frame it presented last. -/
structure Allocation where
  bytes : Nat := 0
  backbuffer : Bool := false
  frontbuffer : Bool := false
  deriving DecidableEq, Repr, Inhabited

namespace Allocation

/-- Nothing. -/
def empty : Allocation := {}

/-- The record that an allocation is in JSON. -/
def toJson (a : Allocation) : Json.Value :=
  .ofFields [("gpu_resource_size_in_bytes", .nat a.bytes),
    ("suggest_have_backbuffer", .bool a.backbuffer),
    ("suggest_have_frontbuffer", .bool a.frontbuffer)]

end Allocation

/-- What a pass gave to a stub. -/
structure StubStat where
  visible : Bool
  allocation : Allocation
  deriving DecidableEq, Repr

/-- The record that it is in JSON. -/
def StubStat.toJson (s : StubStat) : Json.Value :=
  .ofFields [("visible", .bool s.visible), ("allocation", s.allocation.toJson)]

/-- **What a pass sees of a stub**: its surface if it has one, the bytes it would like
to keep, and the stubs that it shares a group with. -/
structure StubView where
  id : StubId
  surface : Option SurfaceState := none
  requested : Nat := 0
  shares : List StubId := []
  deriving DecidableEq, Repr

namespace StubView

/-- Whether the first stub is to be served before the second. One without a surface is
more important than none. -/
def isMoreImportant (a b : StubView) : Bool :=
  match a.surface, b.surface with
  | some s, some t => s.order t == .lt
  | some _, none => true
  | none, _ => false

/-- Whether the stub shares a group with another. -/
def sharesWith (s other : StubView) : Bool := s.shares.contains other.id

end StubView

end Compositor
