import Compositor.Platform

/-!
# Memory limits

Each platform family has a row of constants: how much memory to divide when nobody
says how much there is, how much one stub may get at most and at least, and how
many surfaces may keep the frame they last presented. The least amount is never
above the most, because it is cut to it; a ceiling that is a share of the total can
fall below the floor when the total is small.
-/

namespace Compositor

/-- A mebibyte. -/
def mebibyte : Nat := 1024 * 1024

/-- The most that one stub may get. -/
inductive StubCeiling where
  /-- A share of the total, at most `cap` if there is one. A divisor of zero counts as one. -/
  | fraction (divisor : Nat) (cap : Option Nat)
  /-- A fixed number of bytes, whatever the total. -/
  | absolute (bytes : Nat)
  deriving DecidableEq, Repr

/-- The ceiling in bytes, for a given total. -/
def StubCeiling.resolve (ceiling : StubCeiling) (total : Nat) : Nat :=
  match ceiling with
  | .fraction divisor none => total / max divisor 1
  | .fraction divisor (some cap) => min (total / max divisor 1) cap
  | .absolute bytes => bytes

/-- The constants of a platform family. -/
structure Limits where
  platform : Platform
  /-- The total where neither the configuration nor the driver knows one. -/
  defaultTotal : Nat
  ceiling : StubCeiling
  /-- The least that a visible stub gets, unless the ceiling is lower. -/
  floor : Nat
  /-- How many surfaces may keep the frame they last presented. -/
  softLimit : Nat
  deriving DecidableEq, Repr

namespace Limits

/-- The row of a platform family. -/
def ofPlatform : Platform → Limits
  | .desktop => ⟨.desktop, 256 * mebibyte, .fraction 2 none, 16 * mebibyte, 8⟩
  | .android => ⟨.android, 64 * mebibyte, .fraction 2 (some (32 * mebibyte)), 8 * mebibyte, 2⟩
  | .chromeOs => ⟨.chromeOs, 128 * mebibyte, .absolute (64 * mebibyte), 8 * mebibyte, 4⟩

/-- The most that one stub may get out of a total. -/
def maxStubBytes (limits : Limits) (total : Nat) : Nat := limits.ceiling.resolve total

/-- The least that a visible stub gets out of a total. -/
def minStubBytes (limits : Limits) (total : Nat) : Nat :=
  min limits.floor (limits.maxStubBytes total)

theorem minStubBytes_le (limits : Limits) (total : Nat) :
    limits.minStubBytes total ≤ limits.maxStubBytes total :=
  Nat.min_le_right _ _

end Limits

end Compositor
