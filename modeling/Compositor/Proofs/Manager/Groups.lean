import Mathlib.Data.List.Nodup
import Compositor.Proofs.Manager.Accounts

/-!
# The numbers of tracking groups

Whoever was told the number of a group may go on using it when the group is closed: the one that
holds it lets go of it later, and a client may report it once more. No harm comes of that. What
is done under a number touches no other group, and nothing at all if no group has the number. And
a number that a group had once no other group will ever have, since the counter only goes up.

`Ledger.Issues` is the chronicle of a ledger, with the numbers that were given on the way. Unlike
its history it goes on after a report that faulted, whatever was booked of it.
-/

namespace Compositor.Ledger

/-! ## What is done under a number -/

section OneGroup

variable {l : Ledger} {id other : GroupId}

theorem remove_of_none (hnone : l.groups.find? id = none) : l.remove id = l := by
  unfold remove
  rw [hnone]

theorem report_of_none (hnone : l.groups.find? id = none) (old new : Nat) :
    l.report id old new = (.ok false, l) := by
  unfold report
  rw [hnone]

/-- To close a group leaves the others alone. -/
theorem find?_remove_of_ne (l : Ledger) (hother : other ≠ id) :
    (l.remove id).groups.find? other = l.groups.find? other := by
  unfold remove
  split
  · rfl
  · exact Table.find?_erase_of_ne _ hother

/-- A report writes the record of its own group at most, whatever comes of it. -/
theorem groups_report (l : Ledger) (id : GroupId) (old new : Nat) :
    (l.report id old new).2.groups = l.groups ∨
      ∃ record, (l.report id old new).2.groups = l.groups.insert id record := by
  cases hreport : l.report id old new with
  | mk outcome l' =>
    cases outcome with
    | ok known =>
      rcases report_eq_ok hreport with ⟨-, -, rfl⟩ | ⟨record, -, -, -, -, rfl⟩
      · exact .inl rfl
      · exact .inr ⟨_, rfl⟩
    | error fault =>
      obtain ⟨record, -, ⟨-, -, rfl⟩ | ⟨-, -, -, rfl⟩ | ⟨-, -, -, -, rfl⟩⟩ :=
        report_eq_error hreport
      · exact .inl rfl
      · exact .inl rfl
      · exact .inr ⟨_, rfl⟩

/-- A report leaves the other groups alone. -/
theorem find?_report_of_ne (l : Ledger) (hother : other ≠ id) (old new : Nat) :
    (l.report id old new).2.groups.find? other = l.groups.find? other := by
  rcases l.groups_report id old new with hsame | ⟨record, hinsert⟩
  · rw [hsame]
  · rw [hinsert, Table.find?_insert_of_ne _ _ hother]

theorem next_remove (l : Ledger) (id : GroupId) : (l.remove id).next = l.next := by
  unfold remove
  split <;> rfl

theorem next_report (l : Ledger) (id : GroupId) (old new : Nat) :
    (l.report id old new).2.next = l.next := by
  unfold report
  split
  · rfl
  · split
    · rfl
    · split
      · rfl
      · dsimp only
        split <;> rfl

/-- Closing groups registers none. -/
theorem find?_remove_eq_none (hnone : l.groups.find? other = none) (id : GroupId) :
    (l.remove id).groups.find? other = none := by
  by_cases hother : other = id
  · rw [← hother, remove_of_none hnone, hnone]
  · rw [find?_remove_of_ne l hother, hnone]

/-- Nor does a report. -/
theorem find?_report_eq_none (hnone : l.groups.find? other = none) (id : GroupId)
    (old new : Nat) : (l.report id old new).2.groups.find? other = none := by
  by_cases hother : other = id
  · rw [← hother, report_of_none hnone, hnone]
  · rw [find?_report_of_ne l hother, hnone]

/-- A group can be opened as long as the counter does not overflow. -/
theorem add_of_lt (hroom : l.next + 1 < wordLimit) (pid : Nat) :
    l.add pid = .ok (l.next,
      { l with next := l.next + 1, groups := l.groups.insert l.next ⟨pid, 0⟩ }) := by
  unfold add
  rw [Word.add_of_lt hroom]
  rfl

end OneGroup

/-! ## The chronicle -/

/-- **The chronicle of a ledger**, with the numbers that were given to groups, in their order. -/
inductive Issues (l : Ledger) : List GroupId → Ledger → Prop where
  | start : l.Issues [] l
  | opened {ids : List GroupId} {l' l'' : Ledger} {pid : Nat} {id : GroupId}
      (h : l.Issues ids l') (hadd : l'.add pid = .ok (id, l'')) : l.Issues (ids ++ [id]) l''
  | closed {ids : List GroupId} {l' : Ledger} (h : l.Issues ids l') (id : GroupId) :
      l.Issues ids (l'.remove id)
  /-- Also if the report faulted. -/
  | reported {ids : List GroupId} {l' : Ledger} (h : l.Issues ids l') (id : GroupId)
      (old new : Nat) : l.Issues ids (l'.report id old new).2

namespace Issues

variable {l l' l'' : Ledger} {ids later : List GroupId} {id : GroupId}

theorem trans (h : l.Issues ids l') (h' : l'.Issues later l'') :
    l.Issues (ids ++ later) l'' := by
  induction h' with
  | start =>
    rw [List.append_nil]
    exact h
  | opened _ hadd ih =>
    rw [← List.append_assoc]
    exact ih.opened hadd
  | closed _ id ih => exact ih.closed id
  | reported _ id old new ih => exact ih.reported id old new

/-- The counter counts what was given. -/
theorem next_eq (h : l.Issues ids l') : l'.next = l.next + ids.length := by
  induction h with
  | start => rfl
  | opened _ hadd ih =>
    obtain ⟨-, rfl⟩ := add_eq_ok hadd
    rw [List.length_append, List.length_singleton, ← Nat.add_assoc, ← ih]
  | closed _ id ih => rw [next_remove, ih]
  | reported _ id old new ih => rw [next_report, ih]

/-- **The numbers are given one after the other.** -/
theorem eq_range' (h : l.Issues ids l') : ids = List.range' l.next ids.length := by
  induction h with
  | start => rfl
  | opened hbefore hadd ih =>
    obtain ⟨rfl, -⟩ := add_eq_ok hadd
    rw [List.length_append, List.length_singleton, List.range'_1_concat, ← ih, hbefore.next_eq]
  | closed _ _ ih => exact ih
  | reported _ _ _ _ ih => exact ih

/-- So no number is given twice. -/
theorem nodup (h : l.Issues ids l') : ids.Nodup := by
  rw [h.eq_range']
  exact List.nodup_range'

/-- **Whoever is registered was given a number**, or was registered from the start. -/
theorem find?_eq_none (h : l.Issues ids l') (hnone : l.groups.find? id = none)
    (hnot : id ∉ ids) : l'.groups.find? id = none := by
  induction h with
  | start => exact hnone
  | opened _ hadd ih =>
    rw [List.mem_append, List.mem_singleton, not_or] at hnot
    obtain ⟨rfl, rfl⟩ := add_eq_ok hadd
    rw [Table.find?_insert_of_ne _ _ hnot.2]
    exact ih hnot.1
  | closed _ id ih => exact find?_remove_eq_none (ih hnot) id
  | reported _ id old new ih => exact find?_report_eq_none (ih hnot) id old new

/-- In the chronicle from the empty ledger all that are registered were given their numbers. -/
theorem mem_of_find? (h : Issues {} ids l') {record : GroupRecord}
    (hfind : l'.groups.find? id = some record) : id ∈ ids := by
  by_contra hnot
  rw [h.find?_eq_none rfl hnot] at hfind
  cases hfind

/-- **A number that nobody has any more nobody will have again.** -/
theorem stays_closed (h : Issues {} ids l) (h' : l.Issues later l') (hissued : id ∈ ids)
    (hnone : l.groups.find? id = none) : l'.groups.find? id = none := by
  refine h'.find?_eq_none hnone fun hlater => ?_
  exact List.disjoint_of_nodup_append (h.trans h').nodup hissued hlater

/-- A group can be opened as long as few enough have been, and its number is a new one. -/
theorem add_of_lt (h : Issues {} ids l) (hroom : ids.length + 1 < wordLimit - 1) (pid : Nat) :
    l.next ∉ ids ∧ l.add pid = .ok (l.next,
      { l with next := l.next + 1, groups := l.groups.insert l.next ⟨pid, 0⟩ }) := by
  have hlt : l.next + 1 < wordLimit := by
    rw [h.next_eq, Nat.add_comm _ ids.length]
    exact Nat.add_lt_of_lt_sub hroom
  have hadd := Ledger.add_of_lt hlt pid
  exact ⟨List.disjoint_singleton.1 (List.disjoint_of_nodup_append (h.opened hadd).nodup), hadd⟩

end Issues

/-- **What may become of a ledger**, with some numbers given on the way. -/
def Continues (l l' : Ledger) : Prop := ∃ ids, l.Issues ids l'

theorem Continues.refl (l : Ledger) : l.Continues l := ⟨[], .start⟩

theorem Continues.trans {l l' l'' : Ledger} (h : l.Continues l') (h' : l'.Continues l'') :
    l.Continues l'' := by
  obtain ⟨ids, h⟩ := h
  obtain ⟨later, h'⟩ := h'
  exact ⟨ids ++ later, h.trans h'⟩

theorem continues_report (l : Ledger) (id : GroupId) (old new : Nat) :
    l.Continues (l.report id old new).2 :=
  ⟨[], Issues.start.reported id old new⟩

/-- An entry that does not fault is one more in the chronicle. -/
theorem continues_of_book {l l' : Ledger} {entry : Entry} (hbook : l.book entry = .ok l') :
    l.Continues l' := by
  cases entry with
  | opened pid =>
    obtain ⟨id, hadd⟩ := book_opened_eq_ok hbook
    exact ⟨_, Issues.start.opened hadd⟩
  | closed id =>
    cases hbook
    exact ⟨_, Issues.start.closed id⟩
  | reported id old new =>
    obtain ⟨known, hreport⟩ := book_reported_eq_ok hbook
    have hreported := l.continues_report id old new
    rwa [hreport] at hreported

end Compositor.Ledger
