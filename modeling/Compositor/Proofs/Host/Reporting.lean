import Compositor.Proofs.Host.Refusing
import Compositor.Proofs.Manager.Accounts

/-!
# Reports that fail

A report of a tracking group is booked step by step, and nothing that was booked is taken
back when a later step faults. Off the thread, and if the group does not hold what it is
said to have held, the report fails before anything is written; so it does if the new size
of the group does not fit. But the size is written before the sum is formed, and the sum
before the delayed pass is posted. So there are two ways to fail that leave something
behind: `ends_reportGroup_halted` lists them all.
-/

namespace Compositor

namespace Manager

variable {m m' : Manager} {id : GroupId} {old new : Nat}

/-- A report that faults changes the ledger at most. -/
theorem report_eq_error {fault : Fault} (h : m.report id old new = (.error fault, m')) :
    ∃ l, m.ledger.report id old new = (.error fault, l) ∧ m' = { m with ledger := l } := by
  unfold Manager.report at h
  cases hreport : m.ledger.report id old new with
  | mk outcome l =>
    rw [hreport] at h
    cases outcome with
    | error f =>
      cases h
      exact ⟨l, rfl, rfl⟩
    | ok known => cases h

/-- A report that calls for a pass was booked, and is counted. -/
theorem report_eq_calls (h : m.report id old new = (.ok true, m')) :
    ∃ l, m.ledger.report id old new = (.ok true, l) ∧ old < new ∧ m.available < l.current ∧
      m' = { m with ledger := l, overBudget := m.overBudget + 1 } := by
  unfold Manager.report at h
  cases hreport : m.ledger.report id old new with
  | mk outcome l =>
    rw [hreport] at h
    cases outcome with
    | error f => cases h
    | ok known =>
      obtain ⟨hcalls, rfl⟩ := Prod.mk.inj h
      have hcalls := Except.ok.inj hcalls
      dsimp only at hcalls ⊢
      rw [if_pos hcalls]
      simp only [Bool.and_eq_true, decide_eq_true_eq] at hcalls
      obtain ⟨⟨rfl, hgrows⟩, hover⟩ := hcalls
      exact ⟨l, rfl, hgrows, hover, rfl⟩

end Manager

namespace Host

open Compositor.Action

variable {S : Type} {h : Host S} {number : Nat} {seat : ManagerSeat S}

/-- A post is halted only because its due time cannot be formed, and then nothing is posted. -/
theorem ends_post_halted (task : Task S) (delay : Nanos) :
    (EventLoop.post task delay : Act S Bool).Ends h (fun _ _ => True) fun halt h' =>
      h' = h ∧ halt = .fault .spanOverflow ∧ longestSpan < h.queue.now + delay := by
  unfold EventLoop.post
  simp only [ends_bind, ends_get, ends_ofExcept]
  cases hpost : h.queue.post task delay with
  | ok posted => trivial
  | error f =>
    obtain ⟨-, rfl, hlate⟩ := TaskQueue.post_eq_error hpost
    exact ⟨trivial, rfl, hlate⟩

/-- Taking a request back always comes to an answer. -/
theorem ends_undoRequest (number : Nat) (immediate : Bool) :
    (undoRequest number immediate : Act S Unit).Ends h (fun _ _ => True) fun _ _ => False := by
  unfold undoRequest
  simp only [ends_bind, ends_seat?]
  cases h.state.managers.get? number <;> trivial

/-- **A delayed request is halted only because its due time cannot be formed.** The slot is
filled by then, though nothing was posted. -/
theorem ends_schedule_delayed_halted (hseat : h.state.managers.get? number = some seat) :
    (schedule number false : Act S Unit).Ends h (fun _ _ => True) fun halt h' =>
      halt = .fault .spanOverflow ∧ longestSpan < h.queue.now + seat.manager.delay ∧
        seat.manager.shutDown = false ∧ seat.manager.isScheduled h.state.handles = false ∧
        h' = h.reseated number { seat.manager with delayed := ⟨some h.state.handles.issued⟩ }
          (seat.manager.delayed.cancel h.state.handles.issue.2).2 := by
  unfold schedule
  simp only [ends_bind, ends_seat?, hseat]
  cases hrequest : seat.manager.request false h.state.handles with
  | mk request rest =>
    obtain ⟨m, handles⟩ := rest
    simp only [ends_residents, hrequest, ends_keep]
    rcases Manager.request_cases hrequest with ⟨rfl, -⟩ | ⟨-, hnow, -⟩ |
      ⟨rfl, -, hup, hflag, hfree, rfl, rfl⟩
    · trivial
    · cases hnow
    · have hidle : seat.manager.isScheduled h.state.handles = false := by
        unfold Manager.isScheduled
        rw [hflag, hfree]
        rfl
      unfold postVia
      rw [ends_bind]
      refine (ends_post_halted _ _).imp (fun accepted h' _ => ?_) fun halt h' hhalted => ?_
      · cases accepted with
        | true => trivial
        | false => exact (ends_undoRequest number false).imp (fun _ _ => id) fun _ _ => False.elim
      · obtain ⟨rfl, rfl, hlate⟩ := hhalted
        exact ⟨rfl, hlate, hup, hidle, rfl⟩

/-- A host whose manager is what it was. -/
theorem reseated_self (hseat : h.state.managers.get? number = some seat) :
    h.reseated number seat.manager h.state.handles = h := by
  unfold reseated
  rw [Roster.update_eq_self hseat rfl]

/-- **How a report fails**, and what it leaves of the host then. -/
inductive ReportFails (h : Host S) (number : Nat) (id : GroupId) (old new : Nat) :
    Halt → Host S → Prop where
  /-- It is made off the thread of the manager. -/
  | offThread (hoff : h.state.onThread = false) :
      ReportFails h number id old new
        (.fault (.managerOffThread .trackMemoryAllocatedChange)) h
  /-- The group holds less than it is said to have held. -/
  | belowZero {seat : ManagerSeat S} {record : GroupRecord}
      (hseat : h.state.managers.get? number = some seat)
      (hrecord : seat.manager.ledger.groups.find? id = some record) (hless : record.size < old) :
      ReportFails h number id old new (.fault (.groupBelowZero id)) h
  /-- The new size of the group does not fit. -/
  | sizeOverflow {seat : ManagerSeat S} {record : GroupRecord}
      (hseat : h.state.managers.get? number = some seat)
      (hrecord : seat.manager.ledger.groups.find? id = some record) (hold : old ≤ record.size)
      (hlarge : wordLimit ≤ record.size - old + new) :
      ReportFails h number id old new (.fault .addOverflow) h
  /-- The new size fits, and is booked, but the new sum does not. -/
  | sumOverflow {seat : ManagerSeat S} {record : GroupRecord}
      (hseat : h.state.managers.get? number = some seat)
      (hrecord : seat.manager.ledger.groups.find? id = some record) (hold : old ≤ record.size)
      (hsize : record.size - old + new < wordLimit)
      (hlarge : wordLimit ≤ seat.manager.ledger.current - old + new) :
      ReportFails h number id old new (.fault .addOverflow)
        (h.reseated number { seat.manager with
          ledger := { seat.manager.ledger with
            groups := seat.manager.ledger.groups.insert id
              { record with size := record.size - old + new } } } h.state.handles)
  /-- Everything is booked and counted and the slot is filled, but when the delayed pass would
  be due cannot be formed. -/
  | dueOverflow {seat : ManagerSeat S} {record : GroupRecord}
      (hseat : h.state.managers.get? number = some seat)
      (hrecord : seat.manager.ledger.groups.find? id = some record) (hold : old ≤ record.size)
      (hsum : seat.manager.ledger.current - old + new < wordLimit) (hgrows : old < new)
      (hover : seat.manager.available < seat.manager.ledger.current - old + new)
      (hidle : seat.manager.isScheduled h.state.handles = false)
      (hlate : longestSpan < h.queue.now + seat.manager.delay) :
      ReportFails h number id old new (.fault .spanOverflow)
        (h.reseated number { seat.manager with
          ledger := { seat.manager.ledger with
            groups := seat.manager.ledger.groups.insert id
              { record with size := record.size - old + new }
            current := seat.manager.ledger.current - old + new
            historicalMax :=
              max seat.manager.ledger.historicalMax (seat.manager.ledger.current - old + new) }
          overBudget := seat.manager.overBudget + 1
          delayed := ⟨some h.state.handles.issued⟩ }
          (seat.manager.delayed.cancel h.state.handles.issue.2).2)

/-- **There is no other way for a report to fail.** -/
theorem ends_reportGroup_halted (number : Nat) (id : GroupId) (old new : Nat) :
    (reportGroup number id old new : Act S Unit).Ends h (fun _ _ => True)
      (ReportFails h number id old new) := by
  unfold reportGroup
  rw [ends_bind, ends_requireThread]
  cases hon : h.state.onThread with
  | false => exact .offThread hon
  | true =>
    rw [if_pos rfl, ends_bind, ends_seat?]
    cases hseat : h.state.managers.get? number with
    | none => trivial
    | some seat =>
      cases hreport : seat.manager.report id old new with
      | mk outcome m =>
        simp only [hreport]
        rw [ends_bind, ends_changeManager, ends_bind, ends_ofExcept]
        cases outcome with
        | error fault =>
          show ReportFails h number id old new (.fault fault) (h.reseated number m h.state.handles)
          obtain ⟨l, hledger, rfl⟩ := Manager.report_eq_error hreport
          obtain ⟨record, hrecord, ⟨hless, rfl, rfl⟩ | ⟨hold, hlarge, rfl, rfl⟩ |
            ⟨hold, hsize, hlarge, rfl, rfl⟩⟩ := Ledger.report_eq_error hledger
          · exact (reseated_self hseat).symm ▸ .belowZero hseat hrecord hless
          · exact (reseated_self hseat).symm ▸ .sizeOverflow hseat hrecord hold hlarge
          · exact .sumOverflow hseat hrecord hold hsize hlarge
        | ok calls =>
          cases calls with
          | false => trivial
          | true =>
            show (schedule number false : Act S Unit).Ends (h.reseated number m h.state.handles) _ _
            obtain ⟨l, hledger, hgrows, hover, rfl⟩ := Manager.report_eq_calls hreport
            obtain ⟨-, hnot, -⟩ | ⟨record, hrecord, -, hold, hsum, rfl⟩ :=
              Ledger.report_eq_ok hledger
            · cases hnot
            · refine (ends_schedule_delayed_halted (Roster.get?_update_of_some hseat _)).imp
                (fun _ _ h => h) fun halt h' hhalted => ?_
              obtain ⟨rfl, hlate, -, hidle, rfl⟩ := hhalted
              rw [reseated_reseated]
              exact .dueOverflow hseat hrecord hold hsum hgrows hover hidle hlate

end Host

end Compositor
