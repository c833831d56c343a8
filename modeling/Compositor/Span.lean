import Compositor.Checked

/-!
# Spans of time

Points in time and spans of time are whole nanoseconds, up to the longest span
`longestSpan` of `2 ^ 64 - 1` seconds and 999 999 999 nanoseconds. Adding is
checked against it; a quotient is rounded down to the nanosecond; seconds as a
floating-point number are the whole seconds plus the remaining nanoseconds over
10⁹, each converted on its own, because that is where the rounding happens.
-/

namespace Compositor

/-- A number of nanoseconds: a span, or a point in time since the clock's origin. -/
abbrev Nanos := Nat

/-- Nanoseconds in a second. -/
def nanosPerSecond : Nat := 1000000000

/-- The longest span that can be formed. -/
def longestSpan : Nanos := (wordLimit - 1) * nanosPerSecond + (nanosPerSecond - 1)

namespace Nanos

/-- A whole number of milliseconds. -/
def ofMillis (ms : Nat) : Nanos := ms * 1000000

/-- A whole number of seconds. -/
def ofSeconds (s : Nat) : Nanos := s * nanosPerSecond

/-- The sum of two spans, if it is not beyond the longest. -/
def add (a b : Nanos) : Except Fault Nanos :=
  if a + b ≤ longestSpan then .ok (a + b) else .error .spanOverflow

theorem add_eq_ok {a b c : Nanos} : add a b = .ok c ↔ c = a + b ∧ a + b ≤ longestSpan := by
  unfold add
  split <;> simp_all [eq_comm]

theorem add_eq_error {a b : Nanos} {f : Fault} :
    add a b = .error f ↔ f = .spanOverflow ∧ longestSpan < a + b := by
  unfold add
  split <;> simp_all [eq_comm]

/-- The exact total of a list of spans. -/
def total (xs : List Nanos) : Nanos := xs.foldr (· + ·) 0

/-- The total of a list of spans, if it is not beyond the longest. -/
def sum (xs : List Nanos) : Except Fault Nanos :=
  if total xs ≤ longestSpan then .ok (total xs) else .error .spanSumOverflow

/-- A span divided by a number, rounded down to the nanosecond. -/
def div (a : Nanos) (n : Nat) : Except Fault Nanos :=
  if n = 0 then .error .spanDivision else .ok (a / n)

/-- Seconds in single precision. -/
def toSeconds32 (t : Nanos) : Float32 :=
  (UInt64.ofNat (t / nanosPerSecond)).toFloat32
    + (UInt64.ofNat (t % nanosPerSecond)).toFloat32 / (1000000000 : UInt32).toFloat32

/-- Seconds in double precision. -/
def toSeconds64 (t : Nanos) : Float :=
  (UInt64.ofNat (t / nanosPerSecond)).toFloat
    + (UInt64.ofNat (t % nanosPerSecond)).toFloat / (1000000000 : UInt32).toFloat

end Nanos

end Compositor
