import Compositor.Table

/-!
# Rosters

The objects of one sort on a host, numbered in the order of their arrival. A number
stays valid for ever and is how objects refer to each other. Names come and go: a name
belongs to the object that took it last, and an object whose name was taken or given
up is without one. A name that was given up still tells what it stood for, until
another object takes it.
-/

namespace Compositor

/-- Numbered objects, some of which have names. -/
structure Roster (γ : Type) where
  members : List γ := []
  names : Table String Nat := ∅
  /-- The names that were given up, and what they stood for. -/
  released : Table String Nat := ∅

namespace Roster

variable {γ : Type}

/-- Adds an object without a name, and answers its number. -/
def add (r : Roster γ) (x : γ) : Nat × Roster γ :=
  (r.members.length, { r with members := r.members ++ [x] })

/-- Adds an object under a name, and answers its number. -/
def enroll (r : Roster γ) (name : String) (x : γ) : Nat × Roster γ :=
  let (number, r) := r.add x
  (number, { r with names := r.names.insert name number, released := r.released.erase name })

/-- The object of a number. -/
def get? (r : Roster γ) (number : Nat) : Option γ := r.members[number]?

/-- Changes the object of a number. -/
def update (r : Roster γ) (number : Nat) (f : γ → γ) : Roster γ :=
  { r with members := r.members.modify number f }

/-- The number of the object that has a name. -/
def number? (r : Roster γ) (name : String) : Option Nat := r.names.find? name

/-- The number of the object that has a name, or had it last. -/
def lastNumber? (r : Roster γ) (name : String) : Option Nat :=
  r.number? name <|> r.released.find? name

/-- Gives up a name. -/
def forget (r : Roster γ) (name : String) : Roster γ :=
  match r.number? name with
  | none => r
  | some number =>
    { r with names := r.names.erase name, released := r.released.insert name number }

/-- Whether an object has a name. -/
def isNamed (r : Roster γ) (number : Nat) : Bool := r.names.values.contains number

/-- The objects that have names, with their names. -/
def named (r : Roster γ) : List (String × γ) :=
  r.names.entries.filterMap fun (name, number) => (r.get? number).map (name, ·)

@[simp] theorem get?_update_self (r : Roster γ) (number : Nat) (f : γ → γ) :
    (r.update number f).get? number = (r.get? number).map f := by
  simp [get?, update]

theorem get?_update_of_ne (r : Roster γ) {i j : Nat} (f : γ → γ) (h : j ≠ i) :
    (r.update i f).get? j = r.get? j := by
  simp [get?, update, Ne.symm h]

@[simp] theorem get?_add (r : Roster γ) (x : γ) : (r.add x).2.get? (r.add x).1 = some x := by
  simp [get?, add]

end Roster

end Compositor
