import Compositor.Fault

/-!
# Actions

An *action* works on a state and answers, or is halted. What it wrote before it was
halted stays written, so the state comes out in either case; this is the order of the
two transformers below, and the reason that nothing here ever restores a state.

Actions that run tasks are given fuel, because a task may post another. Fuel running
out is a way of being halted that is kept apart from faults: a fault is an answer of
the program, no fuel is the lack of one.
-/

namespace Compositor

/-- Why an action was halted. -/
inductive Halt where
  | fault (fault : Fault)
  | outOfFuel
  deriving DecidableEq, Repr

/-- An action on a state of type `σ` that answers with an `α`. -/
abbrev Action (σ α : Type) : Type := ExceptT Halt (StateM σ) α

namespace Action

variable {σ α : Type}

/-- The outcome of an action on a state, and the state it leaves. -/
def on (a : Action σ α) (s : σ) : Except Halt α × σ := (ExceptT.run a).run s

/-- Aborts with a fault. -/
def fail (f : Fault) : Action σ α := throw (.fault f)

/-- Answers as a computation does that may fault. -/
def ofExcept : Except Fault α → Action σ α
  | .ok a => pure a
  | .error f => fail f

/-- Does something to the state before an action and something after it, even if the
action is halted. -/
def around (before after : σ → σ) (a : Action σ α) : Action σ α := fun s =>
  let (outcome, s') := a.on (before s)
  (outcome, after s')

theorem on_bind {β : Type} (a : Action σ α) (f : α → Action σ β) (s : σ) :
    (a >>= f).on s =
      match a.on s with
      | (.ok x, s') => (f x).on s'
      | (.error h, s') => (.error h, s') := by
  unfold on
  rw [ExceptT.run_bind, StateT.run_bind]
  rcases (ExceptT.run a).run s with ⟨_ | _, s'⟩ <;> rfl

end Action

end Compositor
