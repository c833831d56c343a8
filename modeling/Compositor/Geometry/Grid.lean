import Compositor.Checked

/-!
# Single precision and the pixel grid

Transforms compute in single precision, rectangles have whole coordinates. This
module is the border between the two.

A coordinate becomes the nearest number of single precision, ties to even. In the
other direction a number is rounded down or up to a whole one; where that lies
outside the coordinates the outermost one is taken, and where there was no number
at all the answer is zero. Both directions are computed from the bits, so what
they answer can be proved and not only observed.

The least and the greatest of two numbers pass over an operand that is no number.
-/

namespace Compositor.Grid

/-- The number nearest to a coordinate. -/
def ofCoord (c : Int32) : Float32 :=
  let magnitude := (UInt32.ofNat c.toInt.natAbs).toFloat32
  if c.toInt < 0 then -magnitude else magnitude

/-- The coordinate nearest to an integer. -/
def clamp (i : Int) : Int32 :=
  if i < -0x80000000 then Int32.minValue
  else if 0x80000000 ≤ i then Int32.maxValue
  else Int32.ofInt i

/-- What the bits of a number say. -/
inductive Reading where
  /-- The number is `mantissa * 2 ^ exponent`. -/
  | finite (mantissa : Int) (exponent : Int)
  /-- Larger, or smaller, than every number. -/
  | infinite (negative : Bool)
  /-- No number. -/
  | none
  deriving DecidableEq, Repr

/-- Reads the bits: a sign, eight bits of exponent and twenty-three bits of mantissa. -/
def read (x : Float32) : Reading :=
  let bits := x.toBits.toNat
  let negative := decide (0x80000000 ≤ bits)
  let exponent : Nat := bits / 0x800000 % 0x100
  let fraction : Nat := bits % 0x800000
  if exponent = 255 then
    if fraction = 0 then .infinite negative else .none
  else
    let mantissa : Nat := if exponent = 0 then fraction else fraction + 0x800000
    .finite (if negative then -(mantissa : Int) else mantissa) ((max exponent 1 : Nat) - 150)

/-- The largest integer that is at most `mantissa * 2 ^ exponent`. -/
def floorScaled (mantissa exponent : Int) : Int :=
  if 0 ≤ exponent then mantissa <<< exponent.natAbs else mantissa >>> exponent.natAbs

/-- The largest coordinate that is at most a number. -/
def floor (x : Float32) : Int32 :=
  match read x with
  | .finite mantissa exponent => clamp (floorScaled mantissa exponent)
  | .infinite negative => if negative then Int32.minValue else Int32.maxValue
  | .none => 0

/-- The smallest coordinate that is at least a number. -/
def ceil (x : Float32) : Int32 :=
  match read x with
  | .finite mantissa exponent => clamp (-floorScaled (-mantissa) exponent)
  | .infinite negative => if negative then Int32.minValue else Int32.maxValue
  | .none => 0

/-- The smaller of two numbers. -/
def least (a b : Float32) : Float32 :=
  if a.isNaN then b else if b.isNaN then a else if a < b then a else b

/-- The larger of two numbers. -/
def greatest (a b : Float32) : Float32 :=
  if a.isNaN then b else if b.isNaN then a else if b < a then a else b

/-- The largest finite number. -/
def largest : Float32 := Float32.ofBits 0x7F7FFFFF

/-- The smallest finite number. -/
def smallest : Float32 := Float32.ofBits 0xFF7FFFFF

theorem toInt_clamp (i : Int) : (clamp i).toInt = max (-0x80000000) (min i 0x7FFFFFFF) := by
  unfold clamp
  split
  · rw [Int32.toInt_minValue]
    omega
  · split
    · rw [Int32.toInt_maxValue]
      omega
    · rw [Int32.toInt_ofInt_of_le (by omega) (by omega)]
      omega

end Compositor.Grid
