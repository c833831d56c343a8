/-!
# Cancelable tasks

A task can be guarded by a *handle*: when its turn comes it runs only if the handle has
not been canceled. Handles are numbers, issued in order; the ledger of handles knows
which of them are canceled. A *slot* holds the handle of at most one task. Filling a
slot again cancels what it held, and so does emptying it – dropping a slot does not.
-/

namespace Compositor

/-- The number of a guarded task. -/
abbrev Handle := Nat

/-- Which handles were issued, and which of those are canceled. -/
structure Handles where
  issued : Nat := 0
  canceled : List Handle := []
  deriving DecidableEq, Repr

namespace Handles

/-- A new handle. -/
def issue (h : Handles) : Handle × Handles := (h.issued, { h with issued := h.issued + 1 })

/-- Cancels a handle. -/
def cancel (h : Handles) (handle : Handle) : Handles :=
  { h with canceled := handle :: h.canceled }

/-- Whether a handle is canceled. -/
def isCanceled (h : Handles) (handle : Handle) : Bool := h.canceled.contains handle

@[simp] theorem isCanceled_cancel (h : Handles) (a b : Handle) :
    (h.cancel a).isCanceled b = (b == a || h.isCanceled b) := by
  simp only [isCanceled, cancel, List.contains_cons]

@[simp] theorem isCanceled_issue (h : Handles) (b : Handle) :
    h.issue.2.isCanceled b = h.isCanceled b := rfl

end Handles

/-- A place for the handle of one task. -/
structure Slot where
  current : Option Handle := none
  deriving DecidableEq, Repr, Inhabited

namespace Slot

/-- Empties the slot and cancels what it held. -/
def cancel (s : Slot) (handles : Handles) : Slot × Handles :=
  match s.current with
  | none => (s, handles)
  | some held => ({}, handles.cancel held)

/-- Fills the slot with a new handle and cancels what it held. -/
def reset (s : Slot) (handles : Handles) : Handle × Slot × Handles :=
  let (fresh, handles) := handles.issue
  (fresh, { current := some fresh }, (s.cancel handles).2)

/-- Whether the slot holds a handle that is not canceled. -/
def isPending (s : Slot) (handles : Handles) : Bool :=
  match s.current with
  | none => false
  | some held => !handles.isCanceled held

end Slot

end Compositor
