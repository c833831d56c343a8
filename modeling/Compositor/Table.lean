/-!
# Tables

A table is a finite map that remembers the order in which its keys first
arrived. The order is part of the value: whoever lists a table sees the
entries in that order, and a key that is written again keeps its place.

The view of a table is `find?`; each operation is described by what it does to
it. A table with distinct keys stays one under every operation, and that is
what lets sums over a table be computed entry by entry.
-/

namespace Compositor

/-- A finite map with its entries in order of arrival. -/
structure Table (κ ν : Type) where
  entries : List (κ × ν) := []
  deriving Repr

namespace Table

variable {κ ν : Type}

instance : EmptyCollection (Table κ ν) := ⟨⟨[]⟩⟩

instance : Inhabited (Table κ ν) := ⟨∅⟩

/-- The keys in order of arrival. -/
def keys (t : Table κ ν) : List κ := t.entries.map Prod.fst

/-- The values, in the order of their keys. -/
def values (t : Table κ ν) : List ν := t.entries.map Prod.snd

/-- The number of entries. -/
def size (t : Table κ ν) : Nat := t.entries.length

variable [DecidableEq κ]

/-- The value under a key. -/
def find? (t : Table κ ν) (k : κ) : Option ν := go t.entries
where
  go : List (κ × ν) → Option ν
    | [] => none
    | (k', v) :: rest => if k' = k then some v else go rest

/-- Whether a key has a value. -/
def contains (t : Table κ ν) (k : κ) : Bool := (t.find? k).isSome

/-- Writes a value under a key: in place if the key is known, else at the end. -/
def insert (t : Table κ ν) (k : κ) (v : ν) : Table κ ν := ⟨go t.entries⟩
where
  go : List (κ × ν) → List (κ × ν)
    | [] => [(k, v)]
    | (k', v') :: rest => if k' = k then (k, v) :: rest else (k', v') :: go rest

/-- Forgets a key. -/
def erase (t : Table κ ν) (k : κ) : Table κ ν := ⟨t.entries.filter fun e => e.1 ≠ k⟩

/-- The table that lists the given pairs, a later pair overwriting an earlier one. -/
def ofList (pairs : List (κ × ν)) : Table κ ν :=
  pairs.foldl (fun t e => t.insert e.1 e.2) ∅

@[simp] theorem find?_insert_self (t : Table κ ν) (k : κ) (v : ν) :
    (t.insert k v).find? k = some v := by
  unfold insert find?
  induction t.entries with
  | nil => simp [insert.go, find?.go]
  | cons e rest ih =>
    by_cases h : e.1 = k
    · simp [insert.go, find?.go, h]
    · simpa [insert.go, find?.go, h] using ih

theorem find?_insert_of_ne (t : Table κ ν) {k k' : κ} (v : ν) (hne : k' ≠ k) :
    (t.insert k v).find? k' = t.find? k' := by
  unfold insert find?
  induction t.entries with
  | nil => simp [insert.go, find?.go, Ne.symm hne]
  | cons e rest ih =>
    by_cases h : e.1 = k
    · simp [insert.go, find?.go, h, Ne.symm hne]
    · simp only [insert.go, if_neg h, find?.go]
      rw [ih]

@[simp] theorem find?_erase_self (t : Table κ ν) (k : κ) : (t.erase k).find? k = none := by
  unfold erase find?
  induction t.entries with
  | nil => rfl
  | cons e rest ih =>
    by_cases h : e.1 = k
    · simpa [List.filter_cons, h] using ih
    · simpa [List.filter_cons, h, find?.go] using ih

theorem find?_erase_of_ne (t : Table κ ν) {k k' : κ} (hne : k' ≠ k) :
    (t.erase k).find? k' = t.find? k' := by
  unfold erase find?
  induction t.entries with
  | nil => rfl
  | cons e rest ih =>
    by_cases h : e.1 = k
    · simpa [List.filter_cons, h, find?.go, Ne.symm hne] using ih
    · simp only [List.filter_cons, ne_eq, h, not_false_eq_true, decide_true, if_true, find?.go]
      rw [ih]

end Table

end Compositor
