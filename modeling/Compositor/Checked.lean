import Compositor.Fault

/-!
# Checked arithmetic

Byte counts and counters are natural numbers that have to fit 64 bits, numbers of
surfaces and layers have to fit 32; coordinates are signed words of 32 bits. No operation wraps around: it answers
with the exact result, or it faults when that result does not fit. Each
operation therefore comes with the one lemma that later proofs cite – it
succeeds exactly when the exact result fits, and then it *is* the exact result.
-/

namespace Compositor

/-- One more than the largest byte count: 2 to the power of 64. -/
def wordLimit : Nat := 0x10000000000000000

/-- One more than the largest number of 32 bits. -/
def word32Limit : Nat := 0x100000000

namespace Word

/-- The sum of two counts, if it fits 64 bits. -/
def add (a b : Nat) : Except Fault Nat :=
  if a + b < wordLimit then .ok (a + b) else .error .addOverflow

/-- The difference of two counts, if there is one. -/
def sub (a b : Nat) : Except Fault Nat :=
  if b ≤ a then .ok (a - b) else .error .subOverflow

theorem add_eq_ok {a b c : Nat} : add a b = .ok c ↔ c = a + b ∧ a + b < wordLimit := by
  unfold add
  split <;> simp_all [eq_comm]

theorem sub_eq_ok {a b c : Nat} : sub a b = .ok c ↔ c = a - b ∧ b ≤ a := by
  unfold sub
  split <;> simp_all [eq_comm]

theorem add_eq_error {a b : Nat} {f : Fault} :
    add a b = .error f ↔ f = .addOverflow ∧ wordLimit ≤ a + b := by
  unfold add
  split <;> simp_all [eq_comm]

theorem add_of_lt {a b : Nat} (h : a + b < wordLimit) : add a b = .ok (a + b) :=
  add_eq_ok.2 ⟨rfl, h⟩

theorem sub_of_le {a b : Nat} (h : b ≤ a) : sub a b = .ok (a - b) :=
  sub_eq_ok.2 ⟨rfl, h⟩

/-- The sum of a list of counts, taken from left to right. -/
def sum (xs : List Nat) : Except Fault Nat := xs.foldlM add 0

end Word

namespace Word32

/-- The sum of two numbers, if it fits 32 bits. -/
def add (a b : Nat) : Except Fault Nat :=
  if a + b < word32Limit then .ok (a + b) else .error .addOverflow

/-- The product of two numbers, if it fits 32 bits. -/
def mul (a b : Nat) : Except Fault Nat :=
  if a * b < word32Limit then .ok (a * b) else .error .mulOverflow

end Word32

namespace Coord

/-- An exact integer as a coordinate, if it fits 32 bits. -/
def ofInt? (i : Int) : Option Int32 :=
  if -0x80000000 ≤ i ∧ i < 0x80000000 then some (Int32.ofInt i) else none

/-- The sum of two coordinates, if it fits. -/
def add (a b : Int32) : Except Fault Int32 :=
  match ofInt? (a.toInt + b.toInt) with
  | some c => .ok c
  | none => .error .addOverflow

/-- The difference of two coordinates, if it fits. -/
def sub (a b : Int32) : Except Fault Int32 :=
  match ofInt? (a.toInt - b.toInt) with
  | some c => .ok c
  | none => .error .subOverflow

theorem ofInt?_eq_some {i : Int} {c : Int32} : ofInt? i = some c ↔ c.toInt = i := by
  unfold ofInt?
  constructor
  · intro h
    split at h
    · next hr =>
      obtain rfl := Option.some.inj h
      exact Int32.toInt_ofInt_of_le hr.1 hr.2
    · cases h
  · rintro rfl
    rw [if_pos ⟨Int32.le_toInt c, Int32.toInt_lt c⟩, Int32.ofInt_toInt]

theorem add_eq_ok {a b c : Int32} : add a b = .ok c ↔ c.toInt = a.toInt + b.toInt := by
  rw [← ofInt?_eq_some]
  unfold add
  split <;> simp_all

theorem sub_eq_ok {a b c : Int32} : sub a b = .ok c ↔ c.toInt = a.toInt - b.toInt := by
  rw [← ofInt?_eq_some]
  unfold sub
  split <;> simp_all

end Coord

end Compositor
