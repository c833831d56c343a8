import Compositor.Checked
import Compositor.Manager.Usage

/-!
# The ledger of tracking groups

Memory is reported by *tracking groups*, each on behalf of a process. The ledger knows
what each group holds, and beside that the sum of it all, now and at its highest. A
report says what a group held before and holds now; it is refused if the group is not
known to hold as much as it says it did, and ignored if the group is not known at all.

A report is booked in three steps – the group, the sum, the highest sum – and one that
faults on the way leaves the steps before the fault booked.
-/

namespace Compositor

/-- The number of a tracking group. -/
abbrev GroupId := Nat

/-- The name of a tracking group. -/
def GroupId.name (id : GroupId) : String := "group#" ++ toString id

/-- What is known of a tracking group. -/
structure GroupRecord where
  pid : Nat
  size : Nat
  deriving DecidableEq, Repr

/-- The books. -/
structure Ledger where
  groups : Table GroupId GroupRecord := ∅
  /-- The number of the next group; a number is never given twice. -/
  next : GroupId := 1
  current : Nat := 0
  historicalMax : Nat := 0
  deriving Repr

namespace Ledger

/-- Opens a group for a process. -/
def add (l : Ledger) (pid : Nat) : Except Fault (GroupId × Ledger) := do
  let next ← Word.add l.next 1
  return (l.next, { l with next, groups := l.groups.insert l.next ⟨pid, 0⟩ })

/-- Closes a group and takes what it held out of the sum. -/
def remove (l : Ledger) (id : GroupId) : Ledger :=
  match l.groups.find? id with
  | none => l
  | some record => { l with groups := l.groups.erase id, current := l.current - record.size }

/-- The size of a group. -/
def size? (l : Ledger) (id : GroupId) : Option Nat := (l.groups.find? id).map GroupRecord.size

/-- Books a report that a group went from one size to another, and answers whether the
group is known. -/
def report (l : Ledger) (id : GroupId) (old new : Nat) : Except Fault Bool × Ledger :=
  match l.groups.find? id with
  | none => (.ok false, l)
  | some record =>
    if record.size < old then (.error (.groupBelowZero id), l)
    else match Word.add (record.size - old) new with
      | .error fault => (.error fault, l)
      | .ok size =>
        let l := { l with groups := l.groups.insert id { record with size } }
        match Word.add (l.current - old) new with
        | .error fault => (.error fault, l)
        | .ok current =>
          (.ok true, { l with current, historicalMax := max l.historicalMax current })

/-- The usage of a process with one more group. -/
def addUsage (t : Table Nat ProcessUsage) (r : GroupRecord) :
    Except Fault (Table Nat ProcessUsage) := do
  let known := (t.find? r.pid).getD {}
  return t.insert r.pid ⟨← Word.add known.bytes r.size, known.groups + 1⟩

/-- What each process holds. -/
def processes (l : Ledger) : Except Fault (Table Nat ProcessUsage) :=
  l.groups.values.foldlM addUsage ∅

end Ledger

end Compositor
