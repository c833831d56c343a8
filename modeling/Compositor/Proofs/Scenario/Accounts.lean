import Compositor.Proofs.Host.Accounts
import Compositor.Proofs.Scenario.Managed

/-!
# Every run keeps the books

Each step of a scenario keeps the history of the ledgers, since each changes managers by
entries alone, and so do the scripts that it runs. On a new host there is no ledger that
could be out of balance, so after any run from there that comes to an answer the books
of every manager balance, and can be shown process by process.
-/

namespace Compositor

namespace Step

open Compositor.Action Host

variable {base : Roster (ManagerSeat Script)}

/-- Steps within steps keep the history of the ledgers, whatever the fuel. -/
theorem keeps_exec (hbase : BalancedAt base) (fuel : Nat) (step : Step) :
    (exec fuel step).Keeps (OnBooks base) :=
  (preserves_exec_onManagers (passing_onBooks hbase) fuel step).keeps

/-! ## The books after a run -/

/-- On a new host there are no managers, and so no books out of balance. -/
theorem balancedAt_new (runner : String) (platform : Platform) :
    BalancedAt (Host.new runner platform : Host Script).state.managers :=
  fun _ => Ledger.balanced_empty

/-- The ledger of a manager after a run from a new host has a history from the empty one. -/
theorem Run.history {runner : String} {platform : Platform} {steps : List Step}
    {h : Host Script} (hrun : Run (Host.new runner platform) steps h) {number : Nat}
    {seat : ManagerSeat Script} (hseat : h.state.managers.get? number = some seat) :
    Ledger.History {} seat.manager.ledger := by
  have hbase := balancedAt_new runner platform
  have hbooked : OnBooks _ h :=
    hrun.keeps (Traced.refl (fun _ => .refl) _) fun step _ fuel => keeps_exec hbase fuel step
  exact hbooked.trace hseat

/-- From one step to the next a manager stays, and its ledger has a history. -/
theorem Does.history {h h' : Host Script} {step : Step} {reply : Reply}
    (hdoes : Does h step reply h') (hbase : BalancedAt h.state.managers) {number : Nat}
    {seat : ManagerSeat Script} (hseat : h.state.managers.get? number = some seat) :
    ∃ seat', h'.state.managers.get? number = some seat' ∧
      seat.manager.ledger.History seat'.manager.ledger := by
  -- the step is taken for a run of its own, from the books as they are before it
  have hbooked : OnBooks h.state.managers h' :=
    hdoes.keeps (Traced.refl (fun _ => .refl) _) fun fuel => keeps_exec hbase fuel step
  exact hbooked.exists_seat hseat

/-- **The books of every manager balance after every run.** Take a run from a new host in
which no step faults, and a manager that is there at its end. The sum in its ledger is
exactly the sum of what the groups hold that are registered, and is no higher than the
highest. The ledger came from the empty one entry by entry, each entry exact – so that no
difference was cut off at zero – and none of them lowered the highest sum; and so it goes
on, with any entry that does not fault and with any step that comes to an answer. The
usage of the processes can be added up without overflow: each process that has groups is
there with what they hold, the memory of the processes adds up to the sum, and their
groups to the number of groups. -/
theorem Run.books_balance {runner : String} {platform : Platform} {steps : List Step}
    {h : Host Script} (hrun : Run (Host.new runner platform) steps h) {number : Nat}
    {seat : ManagerSeat Script} (hseat : h.state.managers.get? number = some seat) :
    seat.manager.ledger.current = (seat.manager.ledger.groups.values.map GroupRecord.size).sum ∧
    seat.manager.ledger.current ≤ seat.manager.ledger.historicalMax ∧
    Ledger.History {} seat.manager.ledger ∧
    (∀ entry l', seat.manager.ledger.book entry = .ok l' → entry.IsExact seat.manager.ledger) ∧
    (∀ step reply h', Does h step reply h' →
      ∃ seat', h'.state.managers.get? number = some seat' ∧
        seat.manager.ledger.historicalMax ≤ seat'.manager.ledger.historicalMax) ∧
    ∃ usage, seat.manager.usage = .ok usage ∧
      usage.allocated = seat.manager.ledger.current ∧
      usage.historicalMax = seat.manager.ledger.historicalMax ∧
      Ledger.Tallies seat.manager.ledger.groups.values usage.processes ∧
      usage.processes.weigh ProcessUsage.bytes = usage.allocated ∧
      usage.processes.weigh ProcessUsage.groups = seat.manager.ledger.groups.size := by
  have hhistory := hrun.history hseat
  have hbalanced := hhistory.balanced Ledger.balanced_empty
  refine ⟨hbalanced.exact, hbalanced.peak, hhistory, fun entry l' hbook => ?_,
    fun step reply h' hdoes => ?_, ?_⟩
  · exact hbalanced.isExact hbook
  · have hbase : BalancedAt h.state.managers := fun number => by
      unfold opening
      cases hget : h.state.managers.get? number with
      | none => exact Ledger.balanced_empty
      | some seat => exact (hrun.history hget).balanced Ledger.balanced_empty
    obtain ⟨seat', hget, hlater⟩ := hdoes.history hbase hseat
    exact ⟨seat', hget, hlater.peak_le⟩
  · obtain ⟨t, hprocesses, htallies⟩ := hbalanced.exists_processes
    have husage : seat.manager.usage = .ok {
        processes := t
        allocated := seat.manager.ledger.current
        historicalMax := seat.manager.ledger.historicalMax
        available := seat.manager.available
        lastPass := seat.manager.lastBreakdown } := by
      unfold Manager.usage
      rw [hprocesses]
      rfl
    refine ⟨_, husage, rfl, rfl, htallies, htallies.bytes.trans hbalanced.exact.symm, ?_⟩
    exact htallies.groups.trans (List.length_map _)

/-- Two processes with three groups: one group grows while a stub is asked in a pass, one is
reported through its handle and let go of. -/
def bookkeeping : List Step :=
  [.newManager "gpu" (.fields { total := some 1000 }) ["tab"] none [],
    .addGroup "gpu" "tiles" 7,
    .addGroup "gpu" "video" 7,
    .createGroup "gpu" "canvas" 9,
    .report "gpu" "video" 0 300,
    .newStub "tab" (some ⟨1, true, 0⟩) 300 [] none [.report "gpu" "tiles" 0 700] [],
    .manage "gpu",
    .reportHandle "canvas" 0 500,
    .report "gpu" "tiles" 700 150,
    .dropGroup "canvas"]

theorem Run.books_balance_bookkeeping :
    ∃ h seat, Run (Host.new "main" .desktop) bookkeeping h ∧
      h.state.managers.get? 0 = some seat ∧
      seat.manager.ledger.current = 450 ∧ seat.manager.ledger.historicalMax = 1500 ∧
      Ledger.History {} seat.manager.ledger ∧
      ∃ usage, seat.manager.usage = .ok usage ∧
        usage.processes.weigh ProcessUsage.bytes = 450 ∧
        usage.processes.weigh ProcessUsage.groups = 2 := by
  have hsums : ((after? 9 bookkeeping (Host.new "main" .desktop)).bind fun h =>
      (h.state.managers.get? 0).map fun s => (s.manager.ledger.current,
        s.manager.ledger.historicalMax, s.manager.ledger.groups.size)) = some (450, 1500, 2) := by
    decide +kernel
  obtain ⟨h, hafter, hmap⟩ := Option.bind_eq_some_iff.1 hsums
  obtain ⟨seat, hseat, hledger⟩ := Option.map_eq_some_iff.1 hmap
  obtain ⟨hcurrent, hpeak, hsize⟩ : seat.manager.ledger.current = 450 ∧
      seat.manager.ledger.historicalMax = 1500 ∧ seat.manager.ledger.groups.size = 2 := by
    simpa using hledger
  have hrun := Run.of_after? hafter
  obtain ⟨-, -, hhistory, -, -, usage, husage, hallocated, -, -, hbytes, hgroups⟩ :=
    hrun.books_balance hseat
  exact ⟨h, seat, hrun, hseat, hcurrent, hpeak, hhistory, usage, husage,
    hbytes.trans (hallocated.trans hcurrent), hgroups.trans hsize⟩

end Step

end Compositor
