import Compositor.Span

/-!
# Task queues in virtual time

A queue holds tasks that are due at points in time, and a clock that only the queue's
owner moves. Each task gets a number when it is posted. Tasks are served by due time,
and tasks due at the same time by number; since a new task has the largest number, it
goes behind every task that is not due later.

A queue may refuse tasks. A refused task gets no number, and whether its due time could
have been formed is not looked at.
-/

namespace Compositor

/-- A task in a queue. -/
structure Pending (τ : Type) where
  due : Nanos
  number : Nat
  task : τ
  deriving Repr

/-- A clock and the tasks that wait for it. -/
structure TaskQueue (τ : Type) where
  now : Nanos := 0
  /-- The number of the next task. -/
  next : Nat := 0
  /-- In the order of service. -/
  pending : List (Pending τ) := []
  accepting : Bool := true
  deriving Repr

namespace TaskQueue

variable {τ : Type}

/-- Puts a task behind every task that is not due later. -/
def insert (p : Pending τ) : List (Pending τ) → List (Pending τ)
  | [] => [p]
  | q :: rest => if q.due ≤ p.due then q :: insert p rest else p :: q :: rest

/-- Posts a task that is due after a delay, and answers whether it was accepted. -/
def post (q : TaskQueue τ) (task : τ) (delay : Nanos) : Except Fault (Bool × TaskQueue τ) :=
  if q.accepting then do
    let due ← Nanos.add q.now delay
    return (true,
      { q with next := q.next + 1, pending := insert { due, number := q.next, task } q.pending })
  else return (false, q)

/-- The earliest task, and the queue without it at the time the task is due. -/
def popNext (q : TaskQueue τ) : Option (τ × TaskQueue τ) :=
  match q.pending with
  | [] => none
  | p :: rest => some (p.task, { q with now := max q.now p.due, pending := rest })

/-- The earliest task if it is due by a point in time, and the queue without it at the
time the task is due. -/
def popDue (q : TaskQueue τ) (deadline : Nanos) : Option (τ × TaskQueue τ) :=
  match q.pending with
  | [] => none
  | p :: _ => if p.due ≤ deadline then q.popNext else none

/-- The time until the earliest task is due. -/
def nextDelay (q : TaskQueue τ) : Option Nanos := q.pending.head?.map fun p => p.due - q.now

/-- Drops every task. -/
def clear (q : TaskQueue τ) : TaskQueue τ := { q with pending := [] }

/-- The number of tasks that wait. -/
def size (q : TaskQueue τ) : Nat := q.pending.length

theorem insert_perm (p : Pending τ) (ps : List (Pending τ)) : (insert p ps).Perm (p :: ps) := by
  induction ps with
  | nil => exact .refl _
  | cons q rest ih =>
    unfold insert
    split
    · exact (ih.cons q).trans (.swap p q rest)
    · exact .refl _

theorem mem_insert {p x : Pending τ} {ps : List (Pending τ)} :
    x ∈ insert p ps ↔ x = p ∨ x ∈ ps := by
  rw [(insert_perm p ps).mem_iff, List.mem_cons]

end TaskQueue

end Compositor
