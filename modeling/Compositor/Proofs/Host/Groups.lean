import Compositor.Proofs.Host.Accounts
import Compositor.Proofs.Host.Reporting
import Compositor.Proofs.Manager.Groups

/-!
# What is done under the number of a group

A group is reported and closed by whoever knows its number, and by its holder, who has the number
in a handle (`GroupCall`). Whatever comes of such a call, no other group of any manager notices,
and if no group has the number the host is exactly what it was.

Which numbers a manager has given follows from what its ledger came of. Whatever is done on a host,
also by a report that faults, is in the chronicle of a ledger, so a number that was given is
not given again.
-/

namespace Compositor.Host

open Compositor.Action

variable {S : Type}

/-- What is known of a group, by the number of its manager and its own. -/
def groupOf (managers : Roster (ManagerSeat S)) (number : Nat) (id : GroupId) :
    Option GroupRecord :=
  (managers.get? number).bind fun seat => seat.manager.ledger.groups.find? id

theorem groupOf_of_seat {managers : Roster (ManagerSeat S)} {number : Nat} {seat : ManagerSeat S}
    (hseat : managers.get? number = some seat) (id : GroupId) :
    groupOf managers number id = seat.manager.ledger.groups.find? id := by
  unfold groupOf
  rw [hseat]
  rfl

/-- A group is still known as it was if its manager knows it as it did. -/
theorem groupOf_update (managers : Roster (ManagerSeat S)) {number n : Nat} {other : GroupId}
    {f : ManagerSeat S → ManagerSeat S}
    (hf : n = number → ∀ seat, managers.get? number = some seat →
      (f seat).manager.ledger.groups.find? other = seat.manager.ledger.groups.find? other) :
    groupOf (managers.update number f) n other = groupOf managers n other := by
  unfold groupOf
  by_cases hn : n = number
  · rw [hn, Roster.get?_update_self]
    cases hseat : managers.get? number with
    | none => rfl
    | some seat => exact hf hn seat hseat
  · rw [Roster.get?_update_of_ne _ _ hn]

/-- What can be done under the number of a group. -/
inductive GroupCall where
  | report (old new : Nat)
  | remove
  /-- The holder of the group reports it. -/
  | reportHeld (pid old new : Nat)
  /-- The holder lets go of the group. -/
  | letGo (pid : Nat)

/-- What a call does for a group of a manager. -/
def GroupCall.act (number : Nat) (id : GroupId) : GroupCall → Act S Unit
  | .report old new => reportGroup number id old new
  | .remove => removeGroup number id
  | .reportHeld pid old new => reportHandle ⟨number, id, pid⟩ old new
  | .letGo pid => releaseHandle ⟨number, id, pid⟩

/-- **A call reports the group, or closes it, or does nothing**, as the manager may be gone. -/
theorem GroupCall.ends_act {h : Host S} {number : Nat} {id : GroupId}
    {Q : Unit → Host S → Prop} {E : Halt → Host S → Prop}
    (hreport : ∀ old new, (reportGroup number id old new : Act S Unit).Ends h Q E)
    (hremove : (removeGroup number id : Act S Unit).Ends h Q E) (hnothing : Q () h)
    (call : GroupCall) : (call.act number id).Ends h Q E := by
  cases call with
  | report old new => exact hreport old new
  | remove => exact hremove
  | reportHeld pid old new =>
    show (reportHandle _ old new).Ends h Q E
    unfold reportHandle
    simp only [ends_bind, ends_residents]
    split
    · exact hreport old new
    · exact hnothing
  | letGo pid =>
    show (releaseHandle _).Ends h Q E
    unfold releaseHandle
    simp only [ends_bind, ends_residents]
    split
    · exact hremove
    · exact hnothing

/-! ## Other groups -/

section OtherGroups

variable {base managers : Roster (ManagerSeat S)} {number : Nat} {id : GroupId}

/-- All groups but one are known as they were, those of other managers among them. -/
def SameGroupsBut (number : Nat) (id : GroupId) (base managers : Roster (ManagerSeat S)) : Prop :=
  ∀ n other, n ≠ number ∨ other ≠ id → groupOf managers n other = groupOf base n other

theorem SameGroupsBut.update (h : SameGroupsBut number id base managers) {k : Nat}
    {f : ManagerSeat S → ManagerSeat S}
    (hf : ∀ seat, managers.get? k = some seat → ∀ other, k ≠ number ∨ other ≠ id →
      (f seat).manager.ledger.groups.find? other = seat.manager.ledger.groups.find? other) :
    SameGroupsBut number id base (managers.update k f) := by
  intro n other hother
  rw [groupOf_update managers fun hn seat hseat => hf seat hseat other (hn ▸ hother)]
  exact h n other hother

/-- Requests leave all groups alone. -/
theorem SameGroupsBut.requested (h : SameGroupsBut number id base managers) {k : Nat}
    {seat : ManagerSeat S} (hseat : managers.get? k = some seat) {m : Manager}
    (hledger : m.ledger = seat.manager.ledger) :
    SameGroupsBut number id base (managers.update k fun s => { s with manager := m }) := by
  refine h.update fun seat' hseat' other _ => ?_
  obtain rfl := Option.some.inj (hseat.symm.trans hseat')
  rw [hledger]

theorem preserves_undoRequest_groups (k : Nat) (immediate : Bool) :
    (undoRequest k immediate : Act S Unit).Preserves
      (OnManagers (SameGroupsBut number id base)) (OnManagers (SameGroupsBut number id base)) := by
  intro h hh
  unfold undoRequest
  simp only [ends_bind, ends_seat?]
  cases hseat : h.state.managers.get? k with
  | none => exact hh
  | some seat => exact SameGroupsBut.requested hh hseat (Manager.ledger_refused _ _ _)

theorem preserves_schedule_groups (k : Nat) (immediate : Bool) :
    (schedule k immediate : Act S Unit).Preserves
      (OnManagers (SameGroupsBut number id base)) (OnManagers (SameGroupsBut number id base)) := by
  intro h hh
  unfold schedule
  simp only [ends_bind, ends_seat?]
  cases hseat : h.state.managers.get? k with
  | none => exact hh
  | some seat =>
    simp only [ends_bind, ends_residents, ends_keep]
    have hkept := SameGroupsBut.requested hh hseat
      (Manager.ledger_request seat.manager immediate h.state.handles)
    have hposted (accepted undone : Bool) : (if accepted then pure PUnit.unit
        else undoRequest k undone : Act S PUnit).Preserves
          (OnManagers (SameGroupsBut number id base))
          (OnManagers (SameGroupsBut number id base)) := by
      cases accepted
      · exact preserves_undoRequest_groups k undone
      · exact .pure _
    split
    · exact hkept
    · exact (beside_managers.postVia _ _ _).bind (fun accepted => hposted accepted true) _ hkept
    · exact (beside_managers.postVia _ _ _).bind (fun accepted => hposted accepted false) _ hkept

/-- **A call under the number of a group leaves the others alone**, whatever comes of it. -/
theorem ends_groupCall_frame (h : Host S) (number : Nat) (id : GroupId) (call : GroupCall) :
    (call.act number id).Ends h
      (fun _ => OnManagers (SameGroupsBut number id h.state.managers))
      (fun _ => OnManagers (SameGroupsBut number id h.state.managers)) := by
  have hsame : OnManagers (SameGroupsBut number id h.state.managers) h := fun _ _ _ => rfl
  refine GroupCall.ends_act (fun old new => ?_) ?_ hsame call
  · unfold reportGroup
    rw [ends_bind, ends_requireThread]
    split
    · rw [ends_bind, ends_seat?]
      cases hseat : h.state.managers.get? number with
      | none => exact hsame
      | some seat =>
        have hbooked : SameGroupsBut number id h.state.managers (h.state.managers.update number
            fun s => { s with manager := (seat.manager.report id old new).2 }) := by
          refine SameGroupsBut.update hsame fun seat' hseat' other hother => ?_
          obtain rfl := Option.some.inj (hseat.symm.trans hseat')
          rw [Manager.ledger_report, Ledger.find?_report_of_ne _
            (hother.resolve_left fun hne => hne rfl)]
        simp only [ends_bind, ends_changeManager, ends_ofExcept]
        split
        · split
          · exact preserves_schedule_groups number false _ hbooked
          · exact hbooked
        · exact hbooked
    · exact hsame
  · unfold removeGroup
    rw [ends_bind, ends_requireThread]
    split
    · refine SameGroupsBut.update hsame fun seat _ other hother => ?_
      exact Ledger.find?_remove_of_ne _ (hother.resolve_left fun hne => hne rfl)
    · exact hsame

end OtherGroups

/-! ## No group -/

section NoGroup

variable {h : Host S} {number : Nat} {id : GroupId}

/-- **A call under a number that no group has changes nothing at all**, and faults only on
another thread. -/
theorem ends_groupCall_of_none (hnone : groupOf h.state.managers number id = none)
    (call : GroupCall) :
    (call.act number id).Ends h (fun _ h' => h' = h)
      fun _ h' => h' = h ∧ h.state.onThread = false := by
  refine GroupCall.ends_act (fun old new => ?_) ?_ rfl call
  · unfold reportGroup
    rw [ends_bind, ends_requireThread]
    split
    · rw [ends_bind, ends_seat?]
      cases hseat : h.state.managers.get? number with
      | none => rfl
      | some seat =>
        have hreport : seat.manager.report id old new = (.ok false, seat.manager) := by
          unfold Manager.report
          rw [Ledger.report_of_none ((groupOf_of_seat hseat id).symm.trans hnone)]
          rfl
        simp only [hreport, ends_bind, ends_changeManager, ends_ofExcept]
        exact reseated_self hseat
    · next hoff => exact ⟨rfl, Bool.not_eq_true _ ▸ hoff⟩
  · unfold removeGroup
    rw [ends_bind, ends_requireThread]
    split
    · rw [ends_changeManager]
      cases hseat : h.state.managers.get? number with
      | none => rw [Roster.update_of_none hseat]
      | some seat =>
        have hremove : seat.manager.ledger.remove id = seat.manager.ledger :=
          Ledger.remove_of_none ((groupOf_of_seat hseat id).symm.trans hnone)
        rw [Roster.update_eq_self hseat (by rw [hremove])]
    · next hoff => exact ⟨rfl, Bool.not_eq_true _ ▸ hoff⟩

end NoGroup

/-! ## Numbers that were given -/

/-- **The chronicle of every ledger goes on**, whatever is done on a host and whether it comes to an
answer or not. -/
theorem passing_chronicled (base : Roster (ManagerSeat S)) :
    Passing (OnManagers (Traced Ledger.Continues base))
      (OnManagers (Traced Ledger.Continues base)) := by
  refine Traced.passing .refl .trans beside_managers (fun _ _ hevolves => ?_)
    fun hP hseat id old new => Traced.update hP .trans fun seat' hseat' => ?_
  · rcases hevolves.ledger with hsame | ⟨entry, hbook⟩
    · rw [hsame]
      exact .refl _
    · exact Ledger.continues_of_book hbook
  · obtain rfl := Option.some.inj (hseat.symm.trans hseat')
    rw [Manager.ledger_report]
    exact Ledger.continues_report _ id old new

/-- The manager of a number has given these numbers to groups so far, and no others. -/
def Issued (number : Nat) (ids : List GroupId) (h : Host S) : Prop :=
  ∃ seat, h.state.managers.get? number = some seat ∧ Ledger.Issues {} ids seat.manager.ledger

section Numbers

variable {h : Host S} {number : Nat} {ids : List GroupId} {id : GroupId} {seat : ManagerSeat S}

theorem Issued.nodup (hissued : Issued number ids h) : ids.Nodup := by
  obtain ⟨seat, -, hissues⟩ := hissued
  exact hissues.nodup

/-- Whoever is registered was given their number. -/
theorem Issued.mem_of_groupOf (hissued : Issued number ids h) {record : GroupRecord}
    (hgroup : groupOf h.state.managers number id = some record) : id ∈ ids := by
  obtain ⟨seat, hseat, hissues⟩ := hissued
  rw [groupOf_of_seat hseat] at hgroup
  exact hissues.mem_of_find? hgroup

/-- Closing a group, of this manager or of another, gives no number. -/
theorem Issued.removed (hissued : Issued number ids h) (k : Nat) (id : GroupId) :
    Issued number ids { h with state := { h.state with
      managers := h.state.managers.update k fun s =>
        { s with manager := { s.manager with ledger := s.manager.ledger.remove id } } } } := by
  obtain ⟨seat, hseat, hissues⟩ := hissued
  by_cases hk : number = k
  · subst hk
    exact ⟨_, Roster.get?_update_of_some hseat _, hissues.closed id⟩
  · exact ⟨seat, (Roster.get?_update_of_ne _ _ hk).trans hseat, hissues⟩

/-- A host with another ledger in one place. -/
def withLedger (h : Host S) (number : Nat) (ledger : Ledger) : Host S :=
  { h with state := { h.state with
    managers := h.state.managers.update number fun s =>
      { s with manager := { s.manager with ledger } } } }

/-- On the thread a group is opened just if its ledger opens it. -/
theorem ends_addGroup {pid : Nat} {ledger : Ledger} {Q : Option GroupId → Host S → Prop}
    {E : Halt → Host S → Prop} (hon : h.state.onThread = true)
    (hseat : h.state.managers.get? number = some seat)
    (hadd : seat.manager.ledger.add pid = .ok (id, ledger)) :
    (addGroup number pid).Ends h Q E ↔ Q (some id) (h.withLedger number ledger) := by
  unfold addGroup
  simp only [ends_bind, ends_requireThread, hon, if_true, ends_seat?, hseat, ends_ofExcept, hadd]
  exact Iff.rfl

/-- **As long as few enough numbers were given, the next is a new one.** -/
theorem Issued.exists_add (hissued : Issued number ids h) (hroom : ids.length + 1 < wordLimit - 1)
    (pid : Nat) :
    ∃ seat id ledger, h.state.managers.get? number = some seat
      ∧ seat.manager.ledger.add pid = .ok (id, ledger) ∧ id ∉ ids
      ∧ Issued number (ids ++ [id]) (h.withLedger number ledger)
      ∧ groupOf (h.withLedger number ledger).state.managers number id = some ⟨pid, 0⟩
      ∧ SameGroupsBut number id h.state.managers (h.withLedger number ledger).state.managers := by
  obtain ⟨seat, hseat, hissues⟩ := hissued
  obtain ⟨hnew, hadd⟩ := hissues.add_of_lt hroom pid
  have hopened := Roster.get?_update_of_some hseat fun s => { s with manager := { s.manager with
    ledger := { seat.manager.ledger with
      next := seat.manager.ledger.next + 1
      groups := seat.manager.ledger.groups.insert seat.manager.ledger.next ⟨pid, 0⟩ } } }
  refine ⟨seat, _, _, hseat, hadd, hnew, ⟨_, hopened, hissues.opened hadd⟩, ?_, ?_⟩
  · rw [withLedger, groupOf_of_seat hopened, Table.find?_insert_self]
  · refine SameGroupsBut.update (fun _ _ _ => rfl) fun seat' hseat' other hother => ?_
    obtain rfl := Option.some.inj (hseat.symm.trans hseat')
    exact Table.find?_insert_of_ne _ _ (hother.resolve_left fun hne => hne rfl)

/-- Letting go of a handle on the thread gives no number and leaves the embedder's tables alone. -/
theorem ends_releaseHandle_issued {Q : Unit → Host S → Prop} {E : Halt → Host S → Prop}
    (number : Nat) (ids : List GroupId) (handle : GroupHandle)
    (hissued : Issued number ids h) (hon : h.state.onThread = true)
    (hQ : ∀ h' : Host S, Issued number ids h' → h'.state.groupIds = h.state.groupIds →
      h'.state.groupHandles = h.state.groupHandles → Q () h') :
    (releaseHandle handle : Act S Unit).Ends h Q E := by
  unfold releaseHandle
  simp only [ends_bind, ends_residents]
  split
  · unfold removeGroup
    rw [ends_bind, ends_requireThread, if_pos hon, ends_changeManager]
    exact hQ _ (hissued.removed handle.manager handle.id) rfl rfl
  · exact hQ h hissued rfl rfl

/-- **The step that opens a group answers with a new number**, under which the group is known by
name, and by its handle if it was made with one. -/
theorem Issued.ends_openGroup (hissued : Issued number ids h) (hon : h.state.onThread = true)
    (hroom : ids.length + 1 < wordLimit - 1) {manager : String}
    (hname : h.state.managers.number? manager = some number) (group : String) (pid : Nat)
    (owned : Bool) :
    (openGroup manager group pid owned : Act S Reply).Ends h
      (fun reply h' => ∃ id, reply = .group (GroupId.name id) (if owned then pid else id) ∧ id ∉ ids
        ∧ Issued number (ids ++ [id]) h' ∧ h'.state.groupIds.find? group = some id
        ∧ (owned = true → h'.state.groupHandles.find? group = some ⟨number, id, pid⟩))
      fun _ _ => False := by
  obtain ⟨seat, id, ledger, hseat, hadd, hnew, hopened, -, -⟩ := hissued.exists_add hroom pid
  unfold openGroup withManager holding withNamed
  simp only [ends_bind, ends_residents, hname, ends_around]
  -- of what it is to open the group, no more matters from here on
  refine Ends.imp (E := fun _ _ => False) (Q := fun found h' => found = some id
      ∧ Issued number (ids ++ [id]) h' ∧ h'.state.onThread = true)
    ((ends_addGroup (h := { h with state := { h.state with
      inUse := [.manager number] ++ h.state.inUse } }) hon hseat hadd).2 ⟨rfl, hopened, hon⟩)
    ?_ fun _ _ => False.elim
  rintro _ h' ⟨rfl, hissued', hon'⟩
  have hfound {t : Table String GroupHandle} :
      (t.insert group ⟨number, id, pid⟩).find? group = some ⟨number, id, pid⟩ :=
    Table.find?_insert_self _ _ _
  simp only [ends_bind, ends_change]
  cases owned with
  | false =>
    exact ⟨id, rfl, hnew, hissued', Table.find?_insert_self _ _ _,
      fun hfalse => Bool.noConfusion hfalse⟩
  | true =>
    simp only [if_true, ends_bind, ends_residents, ends_change]
    split
    · next former _ =>
      rw [ends_bind]
      refine ends_releaseHandle_issued number (ids ++ [id]) former ?_ ?_
        fun h'' hissued'' hids hhandles => ?_
      · exact hissued'
      · exact hon'
      · exact ⟨id, rfl, hnew, hissued'', hids ▸ Table.find?_insert_self _ _ _,
          fun _ => hhandles ▸ hfound⟩
    · exact ⟨id, rfl, hnew, hissued', Table.find?_insert_self _ _ _, fun _ => hfound⟩

end Numbers

end Compositor.Host
