import Compositor.Platform.Limits

/-!
# Bounds of a pass

What a pass has to keep to, in bytes: how much there is, how much a visible stub gets
at most and at least, how much a hidden stub may keep, and how many surfaces keep
their frame. In *window mode* a visible stub is not asked what it would like: each
window is worth the same share of the total.
-/

namespace Compositor

/-- What a pass has to keep to. -/
structure Bounds where
  total : Nat
  maxStub : Nat
  minStub : Nat
  hiddenAllowance : Nat
  /-- How many surfaces, the most important first, may keep their frame. -/
  softLimit : Nat
  /-- The number of windows, in window mode. -/
  windows : Option Nat
  deriving DecidableEq, Repr

namespace Bounds

/-- The bounds that a platform's limits set for a total. -/
def ofLimits (limits : Limits) (total softLimit : Nat) (windows : Option Nat) : Bounds where
  total
  maxStub := limits.maxStubBytes total
  minStub := limits.minStubBytes total
  hiddenAllowance := limits.minStubBytes total
  softLimit
  windows

/-- What a visible stub would like. -/
def wanted (b : Bounds) (requested : Nat) : Nat :=
  match b.windows with
  | some windows => b.total / max windows 1
  | none => requested

theorem wanted_of_windows {b : Bounds} {windows : Nat} (h : b.windows = some windows)
    (requested : Nat) : b.wanted requested = b.total / max windows 1 := by
  rw [wanted, h]

theorem wanted_of_none {b : Bounds} (h : b.windows = none) (requested : Nat) :
    b.wanted requested = requested := by
  rw [wanted, h]

/-- What a visible stub is to get, if there is enough: what it would like, but not less
than the least nor more than the most. Where the two cross, the least wins. -/
def visibleDemand (b : Bounds) (requested : Nat) : Nat :=
  max b.minStub (min (b.wanted requested) (max b.maxStub b.minStub))

theorem minStub_le_visibleDemand (b : Bounds) (requested : Nat) :
    b.minStub ≤ b.visibleDemand requested :=
  Nat.le_max_left _ _

theorem visibleDemand_le (b : Bounds) (requested : Nat) :
    b.visibleDemand requested ≤ max b.maxStub b.minStub := by
  unfold visibleDemand
  omega

end Bounds

end Compositor
