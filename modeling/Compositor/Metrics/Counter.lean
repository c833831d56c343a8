import Compositor.Checked
import Compositor.Table

/-!
# Counters

Named totals. A name starts at zero the first time it is counted, even by zero,
and a total that would not fit its word faults with the name already known.
Listing goes by name, in the order of code points.

Counting can be switched off. A counter that is off knows no name, and every
total it is asked for is zero.
-/

namespace Compositor

/-- Named totals. -/
structure Counter where
  enabled : Bool := true
  totals : Table String Nat := ∅
  deriving Repr

namespace Counter

/-- A counter that is switched off. -/
def off : Counter := { enabled := false }

/-- The total of a name. -/
def get (c : Counter) (name : String) : Nat := (c.totals.find? name).getD 0

/-- Adds to the total of a name. The name is known afterwards also if the sum
does not fit. -/
def increment (c : Counter) (name : String) (amount : Nat) : Except Fault Unit × Counter :=
  if c.enabled then
    match Word.add (c.get name) amount with
    | .ok total => (.ok (), { c with totals := c.totals.insert name total })
    | .error fault => (.error fault, { c with totals := c.totals.insert name (c.get name) })
  else (.ok (), c)

/-- Forgets every name. -/
def reset (c : Counter) : Counter := { c with totals := ∅ }

/-- The names and their totals, by name. -/
def toList (c : Counter) : List (String × Nat) :=
  c.totals.entries.mergeSort fun a b => decide (a.1 ≤ b.1)

end Counter

end Compositor
