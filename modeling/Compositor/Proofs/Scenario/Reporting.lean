import Compositor.Proofs.Host.Reporting
import Compositor.Proofs.Scenario.Run

/-!
# What a failed report leaves behind

A report that fails is expected to leave the books as they were. It does whenever it fails
before the sum of all groups is formed. If that sum is what does not fit, the new size of
the group stands in the books already, and the books are out of balance from then on; and if
it is the due time of the delayed pass that cannot be formed, the report has been booked as
if it had been answered, and a pass is taken to wait that was never posted.
-/

namespace Compositor

namespace Host

open Compositor.Action

variable {S : Type} {h h' : Host S}

/-- The books of a manager and what is scheduled are what they were, but for the size of one
group. -/
structure SameBut (id : GroupId) (h : Host S) (seat : ManagerSeat S) (h' : Host S)
    (seat' : ManagerSeat S) : Prop where
  current : seat'.manager.ledger.current = seat.manager.ledger.current
  historicalMax : seat'.manager.ledger.historicalMax = seat.manager.ledger.historicalMax
  isScheduled :
    seat'.manager.isScheduled h'.state.handles = seat.manager.isScheduled h.state.handles
  size {other : GroupId} (hother : other ≠ id) :
    seat'.manager.ledger.size? other = seat.manager.ledger.size? other

theorem SameBut.refl (id : GroupId) (h : Host S) (seat : ManagerSeat S) :
    SameBut id h seat h seat :=
  ⟨rfl, rfl, rfl, fun _ => rfl⟩

/-- **What a failed report leaves behind.** Whatever state a host is in, a report that fails does
so in one of five ways, each with what it leaves of the host. Nothing is posted. If the sum of
all groups and the due time of a delayed pass can be formed, the host is what it was: the books
of every manager, and what is scheduled. If it is not the due time that cannot be formed, then
the sum, the highest sum and what is scheduled are what they were, and so are the sizes of all
other groups; and books that balanced before balance after it only if nothing was written at
all. -/
theorem failed_report_leaves {number : Nat} {id : GroupId} {old new : Nat} {halt : Halt}
    (hfails : (reportGroup number id old new : Act S Unit).on h = (.error halt, h')) :
    ReportFails h number id old new halt h' ∧ h'.queue = h.queue ∧
    ∀ seat, h.state.managers.get? number = some seat →
      (seat.manager.ledger.current - old + new < wordLimit →
        h.queue.now + seat.manager.delay ≤ longestSpan → h' = h) ∧
      (halt ≠ .fault .spanOverflow → ∃ seat', h'.state.managers.get? number = some seat' ∧
        SameBut id h seat h' seat' ∧
        (seat.manager.ledger.Balanced → seat'.manager.ledger.Balanced → h' = h)) := by
  have hreport := (ends_reportGroup_halted (h := h) number id old new).of_on_error hfails
  refine ⟨hreport, ?_, fun seat hseat => ?_⟩
  · cases hreport <;> rfl
  have hsame : ∃ seat', h.state.managers.get? number = some seat' ∧ SameBut id h seat h seat' ∧
      (seat.manager.ledger.Balanced → seat'.manager.ledger.Balanced → h = h) :=
    ⟨seat, hseat, .refl id h seat, fun _ _ => rfl⟩
  cases hreport with
  | offThread => exact ⟨fun _ _ => rfl, fun _ => hsame⟩
  | belowZero => exact ⟨fun _ _ => rfl, fun _ => hsame⟩
  | sizeOverflow => exact ⟨fun _ _ => rfl, fun _ => hsame⟩
  | sumOverflow hseat' hrecord hold hsize hlarge =>
    obtain rfl := Option.some.inj (hseat.symm.trans hseat')
    refine ⟨fun hfits => absurd hfits (Nat.not_lt_of_le hlarge), fun _ =>
      ⟨_, Roster.get?_update_of_some hseat _, ⟨rfl, rfl, rfl, fun {other} hother => ?_⟩,
        fun hbefore hafter => ?_⟩⟩
    · unfold Ledger.size?
      rw [Table.find?_insert_of_ne _ _ hother]
    · -- the groups would hold more together than fits, but the sum fits
      have hsum := hafter.exact.trans (hbefore.weigh_resized hrecord hold new)
      exact absurd (hsum ▸ hlarge) (Nat.not_le_of_lt hbefore.fits)
  | dueOverflow hseat' _ _ _ _ _ _ hlate =>
    obtain rfl := Option.some.inj (hseat.symm.trans hseat')
    exact ⟨fun _ hdue => absurd hdue (Nat.not_le_of_lt hlate), fun hnot => absurd rfl hnot⟩

end Host

namespace Step

open Host

/-- Two groups, of which the first holds all that a word can count. -/
def brimful : List Step :=
  [.newManager "gpu" (.fields { total := some 1000 }) [] none [],
    .addGroup "gpu" "tiles" 7,
    .addGroup "gpu" "video" 7,
    .report "gpu" "tiles" 0 0xffffffffffffffff]

/-- A group that is said to have held more than it holds: the report fails and leaves nothing
behind. -/
theorem failed_report_leaves_brimful :
    ∃ h h' : Host Script, Run (Host.new "main" .desktop) brimful h ∧
      (reportGroup 0 2 5 0).on h = (.error (.fault (.groupBelowZero 2)), h') ∧ h' = h := by
  obtain ⟨h, hrun, hfound, hfails⟩ := Run.exists_of_after? 9 brimful
    (h := Host.new "main" .desktop)
    (P := fun h => (h.state.managers.get? 0).map (fun seat => decide
        (seat.manager.ledger.current - 5 + 0 < wordLimit ∧
          h.queue.now + seat.manager.delay ≤ longestSpan)) = some true ∧
      ((reportGroup 0 2 5 0).on h).1 = .error (.fault (.groupBelowZero 2)))
    (by decide +kernel)
  obtain ⟨seat, hseat, hroom⟩ := Option.map_eq_some_iff.1 hfound
  obtain ⟨hsum, hdue⟩ := of_decide_eq_true hroom
  have hon : (reportGroup 0 2 5 0).on h = (.error (.fault (.groupBelowZero 2)), _) :=
    Prod.ext hfails rfl
  obtain ⟨-, -, hleaves⟩ := Host.failed_report_leaves hon
  exact ⟨h, _, hrun, hon, (hleaves seat hseat).1 hsum hdue⟩

/-- **A failed report may be half booked.** If the other groups hold all that a word can count,
one more byte in an empty group is booked to the group before the report fails on the sum. -/
theorem size_booked_without_sum :
    ∃ h h' : Host Script, Run (Host.new "main" .desktop) brimful h ∧
      (reportGroup 0 2 0 1).on h = (.error (.fault .addOverflow), h') ∧
      (h.state.managers.get? 0).map (fun seat => seat.manager.ledger.size? 2) = some (some 0) ∧
      (h'.state.managers.get? 0).map (fun seat => seat.manager.ledger.size? 2) = some (some 1) := by
  obtain ⟨h, hrun, hfails, hbefore, hafter⟩ := Run.exists_of_after? 9 brimful
    (h := Host.new "main" .desktop)
    (P := fun h => ((reportGroup 0 2 0 1).on h).1 = .error (.fault .addOverflow) ∧
      (h.state.managers.get? 0).map (fun seat => seat.manager.ledger.size? 2) = some (some 0) ∧
      (((reportGroup 0 2 0 1).on h).2.state.managers.get? 0).map
        (fun seat => seat.manager.ledger.size? 2) = some (some 1))
    (by decide +kernel)
  exact ⟨h, _, hrun, Prod.ext hfails rfl, hbefore, hafter⟩

end Step

end Compositor
