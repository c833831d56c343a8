import Mathlib.Data.List.Induction
import Mathlib.Logic.Relation
import Compositor.Manager.Ledger
import Compositor.Proofs.Table

/-!
# The books balance

The ledger keeps what its groups hold twice: group by group, and as a running sum. The
two are updated by different formulas, and both subtract without asking whether there
is enough to subtract from. `Ledger.Balanced` is the invariant that makes this exact:
the sum is the sum of the groups. A group then never holds more than the sum, so
closing it takes out what it put in; and a report that is not refused says of a group
no more than it holds, so what it takes out of the group and out of the sum is in both.

The usage of the processes regroups the same amounts. It is added up in words, and
cannot overflow since every partial sum is part of a sum that fits.
-/

namespace Compositor.Ledger

/-- **The books balance**: the sum is that of the groups, it fits a word, and it never was
higher than the highest. -/
structure Balanced (l : Ledger) : Prop where
  distinct : l.groups.keys.Nodup
  /-- The next number was not given to any group yet. -/
  fresh : ∀ id ∈ l.groups.keys, id < l.next
  exact : l.current = l.groups.weigh GroupRecord.size
  fits : l.current < wordLimit
  peak : l.current ≤ l.historicalMax

theorem balanced_empty : Balanced {} where
  distinct := List.nodup_nil
  fresh _ h := by cases h
  exact := rfl
  fits := by decide
  peak := Nat.le_refl 0

/-- What may be entered into the books. -/
inductive Entry where
  | opened (pid : Nat)
  | closed (id : GroupId)
  | reported (id : GroupId) (old new : Nat)

/-- The books after an entry, unless it faults. -/
def book (l : Ledger) : Entry → Except Fault Ledger
  | .opened pid => (l.add pid).map Prod.snd
  | .closed id => .ok (l.remove id)
  | .reported id old new =>
    match l.report id old new with
    | (.ok _, l') => .ok l'
    | (.error f, _) => .error f

/-- An entry about a known group takes no more out of it, and no more out of the sum, than
is in there. -/
def Entry.IsExact (l : Ledger) : Entry → Prop
  | .opened _ => True
  | .closed id => ∀ record, l.groups.find? id = some record → record.size ≤ l.current
  | .reported id old _ =>
    ∀ record, l.groups.find? id = some record → old ≤ record.size ∧ old ≤ l.current

/-! ## What each operation does -/

/-- What opening a group does, if it does not fault. -/
theorem add_eq_ok {l l' : Ledger} {pid : Nat} {id : GroupId} (h : l.add pid = .ok (id, l')) :
    id = l.next ∧
      l' = { l with next := l.next + 1, groups := l.groups.insert l.next ⟨pid, 0⟩ } := by
  unfold add at h
  cases hadd : Word.add l.next 1 with
  | error f => rw [hadd] at h; cases h
  | ok next =>
    rw [hadd] at h
    obtain ⟨rfl, -⟩ := Word.add_eq_ok.1 hadd
    cases h
    exact ⟨rfl, rfl⟩

/-- What a report does, if it does not fault: nothing if the group is not known, else it
books the difference to the group and to the sum. -/
theorem report_eq_ok {l l' : Ledger} {id : GroupId} {old new : Nat} {known : Bool}
    (h : l.report id old new = (.ok known, l')) :
    (l.groups.find? id = none ∧ known = false ∧ l' = l) ∨
      ∃ record, l.groups.find? id = some record ∧ known = true ∧ old ≤ record.size ∧
        l.current - old + new < wordLimit ∧
        l' = { l with
          groups := l.groups.insert id { record with size := record.size - old + new }
          current := l.current - old + new
          historicalMax := max l.historicalMax (l.current - old + new) } := by
  unfold report at h
  cases hfind : l.groups.find? id with
  | none =>
    rw [hfind] at h
    cases h
    exact .inl ⟨rfl, rfl, rfl⟩
  | some record =>
    refine .inr ⟨record, rfl, ?_⟩
    rw [hfind] at h
    dsimp only at h
    split at h
    · cases h
    · next hle =>
      split at h
      · cases h
      · next size hsize =>
        obtain ⟨rfl, -⟩ := Word.add_eq_ok.1 hsize
        split at h
        · cases h
        · next current hcurrent =>
          obtain ⟨rfl, hlt⟩ := Word.add_eq_ok.1 hcurrent
          cases h
          exact ⟨rfl, by omega, hlt, rfl⟩

/-- What a report leaves behind if it faults. The group is known. If it does not hold what it is
said to have held, or its new size does not fit, the books are as they were. If the new size
fits and the new sum does not, then the size has been booked, and nothing else. -/
theorem report_eq_error {l l' : Ledger} {id : GroupId} {old new : Nat} {fault : Fault}
    (h : l.report id old new = (.error fault, l')) :
    ∃ record, l.groups.find? id = some record ∧
      ((record.size < old ∧ fault = .groupBelowZero id ∧ l' = l) ∨
        (old ≤ record.size ∧ wordLimit ≤ record.size - old + new ∧ fault = .addOverflow ∧ l' = l) ∨
        (old ≤ record.size ∧ record.size - old + new < wordLimit ∧
          wordLimit ≤ l.current - old + new ∧ fault = .addOverflow ∧
          l' = { l with
            groups := l.groups.insert id { record with size := record.size - old + new } })) := by
  unfold report at h
  cases hfind : l.groups.find? id with
  | none => rw [hfind] at h; cases h
  | some record =>
    refine ⟨record, rfl, ?_⟩
    rw [hfind] at h
    dsimp only at h
    split at h
    · next hlt =>
      cases h
      exact .inl ⟨hlt, rfl, rfl⟩
    · next hnot =>
      have hle : old ≤ record.size := Nat.le_of_not_lt hnot
      split at h
      · next f hsize =>
        obtain ⟨rfl, hlarge⟩ := Word.add_eq_error.1 hsize
        cases h
        exact .inr (.inl ⟨hle, hlarge, rfl, rfl⟩)
      · next size hsize =>
        obtain ⟨rfl, hfits⟩ := Word.add_eq_ok.1 hsize
        split at h
        · next f hcurrent =>
          obtain ⟨rfl, hlarge⟩ := Word.add_eq_error.1 hcurrent
          cases h
          exact .inr (.inr ⟨hle, hfits, hlarge, rfl, rfl⟩)
        · cases h

theorem book_opened_eq_ok {l l' : Ledger} {pid : Nat} (h : l.book (.opened pid) = .ok l') :
    ∃ id, l.add pid = .ok (id, l') := by
  simp only [book] at h
  cases hadd : l.add pid with
  | error f => rw [hadd] at h; cases h
  | ok opened =>
    rw [hadd] at h
    cases h
    exact ⟨opened.1, rfl⟩

theorem book_reported_eq_ok {l l' : Ledger} {id : GroupId} {old new : Nat}
    (h : l.book (.reported id old new) = .ok l') :
    ∃ known, l.report id old new = (.ok known, l') := by
  simp only [book] at h
  split at h
  · next known reported hreport =>
    cases h
    exact ⟨known, hreport⟩
  · cases h

/-! ## Balance is kept -/

section Balance

variable {l l' : Ledger}

/-- No group holds more than the sum. -/
theorem Balanced.size_le_current (h : l.Balanced) {id : GroupId} {record : GroupRecord}
    (hfind : l.groups.find? id = some record) : record.size ≤ l.current := by
  rw [h.exact]
  exact Table.le_weigh hfind

theorem Balanced.next_not_found (h : l.Balanced) : l.groups.find? l.next = none :=
  Table.find?_eq_none_iff.2 fun hmem => Nat.lt_irrefl _ (h.fresh _ hmem)

theorem Balanced.add (h : l.Balanced) {pid : Nat} {id : GroupId}
    (hadd : l.add pid = .ok (id, l')) : l'.Balanced := by
  obtain ⟨-, rfl⟩ := add_eq_ok hadd
  refine ⟨Table.nodup_keys_insert h.distinct _ _, fun id hid => ?_, ?_, h.fits, h.peak⟩
  · rcases Table.mem_keys_insert.1 hid with rfl | hid
    · exact Nat.lt_succ_self _
    · exact Nat.lt_succ_of_lt (h.fresh id hid)
  · have hsum := Table.weigh_insert_of_none (w := GroupRecord.size) h.next_not_found ⟨pid, 0⟩
    exact h.exact.trans hsum.symm

theorem Balanced.remove (h : l.Balanced) (id : GroupId) : (l.remove id).Balanced := by
  unfold Ledger.remove
  split
  · exact h
  · next record hfind =>
    have hsum := Table.weigh_erase (w := GroupRecord.size) h.distinct hfind
    have hexact := h.exact
    refine ⟨Table.nodup_keys_erase h.distinct id,
      fun id hid => h.fresh id (Table.mem_keys_of_mem_keys_erase hid), ?_,
      Nat.lt_of_le_of_lt (Nat.sub_le _ _) h.fits, Nat.le_trans (Nat.sub_le _ _) h.peak⟩
    show l.current - record.size = (l.groups.erase id).weigh GroupRecord.size
    omega

/-- What the groups hold together once the new size of one of them is booked: the group and the
sum change by the same amount, and neither is cut off. -/
theorem Balanced.weigh_resized (h : l.Balanced) {id : GroupId} {record : GroupRecord} {old : Nat}
    (hfind : l.groups.find? id = some record) (hold : old ≤ record.size) (new : Nat) :
    (l.groups.insert id { record with size := record.size - old + new }).weigh GroupRecord.size
      = l.current - old + new := by
  have hsum := Table.weigh_insert_of_some (w := GroupRecord.size) hfind
    { record with size := record.size - old + new }
  have hle := h.size_le_current hfind
  have hexact := h.exact
  dsimp only at hsum ⊢
  omega

theorem Balanced.report (h : l.Balanced) {id : GroupId} {old new : Nat} {known : Bool}
    (hreport : l.report id old new = (.ok known, l')) : l'.Balanced := by
  rcases report_eq_ok hreport with ⟨-, -, rfl⟩ | ⟨record, hfind, -, hold, hlt, rfl⟩
  · exact h
  · refine ⟨Table.nodup_keys_insert h.distinct _ _, fun id' hid => ?_,
      (h.weigh_resized hfind hold new).symm, hlt, Nat.le_max_right _ _⟩
    rcases Table.mem_keys_insert.1 hid with rfl | hid
    · exact h.fresh _ (Table.mem_keys_of_find? hfind)
    · exact h.fresh _ hid

end Balance

/-! ## The history of a ledger -/

/-- One entry later: it did not fault, it was exact, the books balance after it, and the
highest sum did not fall. -/
def Follows (l l' : Ledger) : Prop :=
  ∃ entry, l.book entry = .ok l' ∧ entry.IsExact l ∧ l'.Balanced ∧
    l.historicalMax ≤ l'.historicalMax

/-- Some entries later. -/
def History : Ledger → Ledger → Prop := Relation.ReflTransGen Follows

/-- **In balanced books every entry that does not fault is exact.** -/
theorem Balanced.isExact {l l' : Ledger} (h : l.Balanced) {entry : Entry}
    (hbook : l.book entry = .ok l') : entry.IsExact l := by
  cases entry with
  | opened pid => trivial
  | closed id => exact fun record => h.size_le_current
  | reported id old new =>
    intro record hfind
    obtain ⟨known, hreport⟩ := book_reported_eq_ok hbook
    rcases report_eq_ok hreport with ⟨hnone, -⟩ | ⟨record', hfind', -, hold, -⟩
    · rw [hnone] at hfind
      cases hfind
    · obtain rfl := Option.some.inj (hfind'.symm.trans hfind)
      exact ⟨hold, Nat.le_trans hold (h.size_le_current hfind)⟩

/-- An entry that does not fault leaves balanced books behind. -/
theorem Balanced.book {l l' : Ledger} (h : l.Balanced) {entry : Entry}
    (hbook : l.book entry = .ok l') : l'.Balanced := by
  cases entry with
  | opened pid =>
    obtain ⟨id, hadd⟩ := book_opened_eq_ok hbook
    exact h.add hadd
  | closed id =>
    cases hbook
    exact h.remove id
  | reported id old new =>
    obtain ⟨known, hreport⟩ := book_reported_eq_ok hbook
    exact h.report hreport

/-- No entry lowers the highest sum. -/
theorem historicalMax_le_book {l l' : Ledger} {entry : Entry} (hbook : l.book entry = .ok l') :
    l.historicalMax ≤ l'.historicalMax := by
  cases entry with
  | opened pid =>
    obtain ⟨id, hadd⟩ := book_opened_eq_ok hbook
    obtain ⟨-, rfl⟩ := add_eq_ok hadd
    exact Nat.le_refl _
  | closed id =>
    cases hbook
    unfold Ledger.remove
    split <;> exact Nat.le_refl _
  | reported id old new =>
    obtain ⟨known, hreport⟩ := book_reported_eq_ok hbook
    rcases report_eq_ok hreport with ⟨-, -, rfl⟩ | ⟨-, -, -, -, -, rfl⟩
    · exact Nat.le_refl _
    · exact Nat.le_max_left _ _

theorem Balanced.follows {l l' : Ledger} (h : l.Balanced) {entry : Entry}
    (hbook : l.book entry = .ok l') : l.Follows l' :=
  ⟨entry, hbook, h.isExact hbook, h.book hbook, historicalMax_le_book hbook⟩

theorem History.balanced {l l' : Ledger} (hl : l.Balanced) (h : l.History l') :
    l'.Balanced := by
  induction h with
  | refl => exact hl
  | tail _ hstep _ =>
    obtain ⟨-, -, -, hbalanced, -⟩ := hstep
    exact hbalanced

theorem History.peak_le {l l' : Ledger} (h : l.History l') :
    l.historicalMax ≤ l'.historicalMax := by
  induction h with
  | refl => exact Nat.le_refl _
  | tail _ hstep ih =>
    obtain ⟨-, -, -, -, hpeak⟩ := hstep
    exact Nat.le_trans ih hpeak

/-! ## The usage of the processes -/

/-- The share of a process in a list of groups. -/
def shareOf (pid : Nat) (records : List GroupRecord) : ProcessUsage :=
  let own := records.filter fun r => r.pid = pid
  ⟨(own.map GroupRecord.size).sum, own.length⟩

/-- A table **tallies** a list of groups: it has each process that has a group, with its
share, and the shares add up to the whole. -/
structure Tallies (records : List GroupRecord) (t : Table Nat ProcessUsage) : Prop where
  distinct : t.keys.Nodup
  share : ∀ pid, t.find? pid =
    if pid ∈ records.map GroupRecord.pid then some (shareOf pid records) else none
  bytes : t.weigh ProcessUsage.bytes = (records.map GroupRecord.size).sum
  groups : t.weigh ProcessUsage.groups = records.length

theorem shareOf_concat_self (records : List GroupRecord) (r : GroupRecord) :
    shareOf r.pid (records ++ [r])
      = ⟨(shareOf r.pid records).bytes + r.size, (shareOf r.pid records).groups + 1⟩ := by
  simp [shareOf]

theorem shareOf_concat_of_ne {pid : Nat} (records : List GroupRecord) {r : GroupRecord}
    (h : pid ≠ r.pid) : shareOf pid (records ++ [r]) = shareOf pid records := by
  simp [shareOf, Ne.symm h]

/-- The share of a process is part of the whole. -/
theorem shareOf_bytes_le (pid : Nat) (records : List GroupRecord) :
    (shareOf pid records).bytes ≤ (records.map GroupRecord.size).sum :=
  (List.filter_sublist.map _).sum_le_sum fun _ _ => Nat.zero_le _

/-- The usage known of a process before a group of it is added: none if it has no group. -/
theorem Tallies.getD_find? {records : List GroupRecord} {t : Table Nat ProcessUsage}
    (h : Tallies records t) (pid : Nat) : (t.find? pid).getD {} = shareOf pid records := by
  rw [h.share]
  split
  · rfl
  · next hnone =>
    have hown : records.filter (fun r => decide (r.pid = pid)) = [] :=
      List.filter_eq_nil_iff.2 fun r hr hpid =>
        hnone (List.mem_map.2 ⟨r, hr, of_decide_eq_true hpid⟩)
    unfold shareOf
    rw [hown]
    rfl

/-- One more group is tallied, if all groups together fit a word. -/
theorem Tallies.snoc {records : List GroupRecord} {t : Table Nat ProcessUsage}
    (h : Tallies records t) (r : GroupRecord)
    (hfits : (records.map GroupRecord.size).sum + r.size < wordLimit) :
    ∃ t', addUsage t r = .ok t' ∧ Tallies (records ++ [r]) t' := by
  have hword : Word.add (shareOf r.pid records).bytes r.size
      = .ok ((shareOf r.pid records).bytes + r.size) :=
    Word.add_of_lt (Nat.lt_of_le_of_lt
      (Nat.add_le_add_right (shareOf_bytes_le r.pid records) _) hfits)
  refine ⟨t.insert r.pid (shareOf r.pid (records ++ [r])), ?_, ?_⟩
  · unfold addUsage
    dsimp only
    rw [h.getD_find?, hword, shareOf_concat_self]
    rfl
  -- what the table weighs grows by what the group adds, whether its process is new or not
  have hweigh (w : ProcessUsage → Nat) (added : Nat) (hzero : w {} = 0)
      (hadded : w (shareOf r.pid (records ++ [r])) = w (shareOf r.pid records) + added) :
      (t.insert r.pid (shareOf r.pid (records ++ [r]))).weigh w = t.weigh w + added := by
    have hknown := h.getD_find? r.pid
    cases hfind : t.find? r.pid with
    | none =>
      rw [hfind] at hknown
      rw [Table.weigh_insert_of_none hfind, hadded, ← hknown, Option.getD_none, hzero,
        Nat.zero_add]
    | some share =>
      rw [hfind] at hknown
      have := Table.weigh_insert_of_some (w := w) hfind (shareOf r.pid (records ++ [r]))
      rw [hadded, ← hknown, Option.getD_some] at this
      omega
  refine ⟨Table.nodup_keys_insert h.distinct _ _, fun pid => ?_, ?_, ?_⟩
  · rw [List.map_append, List.map_cons, List.map_nil]
    by_cases hpid : pid = r.pid
    · rw [hpid, Table.find?_insert_self, if_pos (by simp)]
    · rw [Table.find?_insert_of_ne t _ hpid, h.share, shareOf_concat_of_ne records hpid]
      simp [hpid]
  · rw [hweigh ProcessUsage.bytes r.size rfl (by rw [shareOf_concat_self]), h.bytes]
    simp
  · rw [hweigh ProcessUsage.groups 1 rfl (by rw [shareOf_concat_self]), h.groups]
    simp

/-- **Adding up the groups of all processes does not overflow** if all groups together fit
a word, and gives each process its share. -/
theorem exists_tallies (records : List GroupRecord)
    (hfits : (records.map GroupRecord.size).sum < wordLimit) :
    ∃ t, records.foldlM addUsage ∅ = .ok t ∧ Tallies records t := by
  induction records using List.reverseRecOn with
  | nil => exact ⟨∅, rfl, ⟨List.nodup_nil, fun _ => rfl, rfl, rfl⟩⟩
  | append_singleton records r ih =>
    rw [List.map_append, List.sum_append, List.map_cons, List.map_nil, List.sum_singleton]
      at hfits
    obtain ⟨t, ht, htallies⟩ := ih (by omega)
    obtain ⟨t', ht', htallies'⟩ := htallies.snoc r hfits
    refine ⟨t', ?_, htallies'⟩
    rw [List.foldlM_append, ht]
    show [r].foldlM addUsage t = _
    rw [List.foldlM_cons, ht']
    rfl

/-- The usage of the processes in balanced books is there, and tallies the groups. -/
theorem Balanced.exists_processes {l : Ledger} (h : l.Balanced) :
    ∃ t, l.processes = .ok t ∧ Tallies l.groups.values t :=
  exists_tallies l.groups.values (h.exact.symm.trans_lt h.fits)

end Compositor.Ledger
