import Compositor.Span

/-!
# Sliding windows

A window keeps the samples pushed last, as many as it has slots. It fills its
slots in order and then overwrites them in the same order, round and round, so a
sample stays in one slot for as long as it is kept.

A window always has a slot, except one that is switched off: that has none and
keeps nothing.
-/

namespace Compositor

/-- The samples pushed last, slot by slot. -/
structure Window (α : Type) where
  capacity : Nat
  /-- The slots filled so far. -/
  samples : List α := []
  /-- The slot that is written next. -/
  next : Nat := 0
  deriving Repr

namespace Window

variable {α : Type}

/-- An empty window with the given number of slots, at least one. -/
def ofCapacity (capacity : Nat) : Window α := { capacity := max capacity 1 }

/-- A window that is switched off. -/
def off : Window α := { capacity := 0 }

/-- Keeps a sample, in place of the oldest if every slot is filled. -/
def push (w : Window α) (sample : α) : Window α :=
  if w.capacity = 0 then w
  else
    { w with
      samples :=
        if w.samples.length < w.capacity then w.samples ++ [sample]
        else w.samples.set w.next sample
      next := (w.next + 1) % w.capacity }

/-- The number of samples kept. -/
def size (w : Window α) : Nat := w.samples.length

/-- Whether no sample is kept. -/
def isEmpty (w : Window α) : Bool := w.samples.isEmpty

/-- The mean of the spans kept, rounded down to the nanosecond; zero if there are none. Their
number is divided by as a number of 32 bits. -/
def average (w : Window Nanos) : Except Fault Nanos := do
  if w.isEmpty then return 0
  (← Nanos.sum w.samples).div (w.size % word32Limit)

/-- The longest span kept; zero if there are none. -/
def longest (w : Window Nanos) : Nanos := w.samples.foldl max 0

theorem capacity_push (w : Window α) (x : α) : (w.push x).capacity = w.capacity := by
  unfold push
  split <;> rfl

theorem size_push (w : Window α) (x : α) (h : w.size ≤ w.capacity) :
    (w.push x).size = min (w.size + 1) w.capacity := by
  unfold push size at *
  by_cases h0 : w.capacity = 0
  · simp only [if_pos h0]
    omega
  · rw [if_neg h0]
    by_cases hlt : w.samples.length < w.capacity
    · simp only [if_pos hlt, List.length_append, List.length_singleton]
      omega
    · simp only [if_neg hlt, List.length_set]
      omega

end Window

end Compositor
