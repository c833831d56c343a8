import Compositor.Task.Action
import Compositor.Task.Queue

/-!
# Event loops

An event loop is a task queue together with the state that its tasks work on. Nothing
runs by itself: the owner *pumps* the loop, and pumping takes the tasks out one by one
and runs each on the loop as it then is – with the task gone from the queue and the
clock at the time it was due. What a task is and does is a parameter, so a task may
post further tasks, and may pump the loop itself.

Pumping counts the tasks it ran. It may go on for ever, so it is given fuel: one unit
for each task, and one to see that nothing is left to do.
-/

namespace Compositor

/-- A task queue, and the state that the tasks work on. -/
structure EventLoop (τ σ : Type) where
  queue : TaskQueue τ
  state : σ

namespace EventLoop

variable {τ σ : Type}

/-- An action on an event loop. -/
abbrev Act (τ σ α : Type) : Type := Action (EventLoop τ σ) α

/-- Posts a task that is due after a delay, and answers whether it was accepted. -/
def post (task : τ) (delay : Nanos) : Act τ σ Bool := do
  let (accepted, queue) ← Action.ofExcept ((← get).queue.post task delay)
  modify fun l => { l with queue }
  return accepted

/-- Runs every task that is due by a point in time, also those posted meanwhile, and
answers how many there were. -/
def runDue (exec : τ → Act τ σ Unit) (deadline : Nanos) : Nat → Act τ σ Nat
  | 0 => throw .outOfFuel
  | fuel + 1 => do
    match (← get).queue.popDue deadline with
    | none => return 0
    | some (task, queue) =>
      modify fun l => { l with queue }
      exec task
      return (← runDue exec deadline fuel) + 1

/-- Runs every task that is due now. -/
def runUntilIdle (exec : τ → Act τ σ Unit) (fuel : Nat) : Act τ σ Nat := do
  runDue exec (← get).queue.now fuel

/-- Moves the clock ahead, running tasks as they come due, and leaves it at the time
that it was to be moved to. -/
def advance (exec : τ → Act τ σ Unit) (fuel : Nat) (span : Nanos) : Act τ σ Nat := do
  let target ← Action.ofExcept (Nanos.add (← get).queue.now span)
  let ran ← runDue exec target fuel
  modify fun l => { l with queue := { l.queue with now := target } }
  return ran

/-- Runs the earliest task, whenever it is due, and answers whether there was one. -/
def runNext (exec : τ → Act τ σ Unit) : Act τ σ Bool := do
  match (← get).queue.popNext with
  | none => return false
  | some (task, queue) =>
    modify fun l => { l with queue }
    exec task
    return true

end EventLoop

end Compositor
