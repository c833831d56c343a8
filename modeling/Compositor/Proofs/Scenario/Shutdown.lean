import Compositor.Proofs.Host.Shutdown
import Compositor.Proofs.Scenario.Managed

/-!
# Shutting down is final

What a step preserves whether it comes to an answer or not holds after every course of steps,
and a manager that was shut down is at rest in all of them.
-/

namespace Compositor.Step

open Compositor.Action Host

theorem preserves_perform_sealed {run : Script → Act Script Unit}
    (hrun : ∀ script, (run script).Preserves (OnManagers Sealed) (OnManagers Sealed))
    (fuel : Nat) (step : Step) :
    (perform run fuel step).Preserves (OnManagers Sealed) (OnManagers Sealed) :=
  preserves_perform passing_sealed.toManaged hrun
    (passing_sealed.manage (fun _ => preserves_change fun _ hh => hh) hrun) fuel step

theorem preserves_exec_sealed (fuel : Nat) (step : Step) :
    (exec fuel step).Preserves (OnManagers Sealed) (OnManagers Sealed) :=
  preserves_exec_onManagers passing_sealed fuel step

theorem preserves_exec_since (base : Host Script) (fuel : Nat) (step : Step) :
    (exec fuel step).Preserves (Since base) (Since base) :=
  preserves_exec (fun base => (passing_since base).toManaged)
    (fun _ hrun => preserves_manage_since hrun) fuel step base

section AtRest

variable {h : Host Script} {number : Nat} {seat : ManagerSeat Script} {name : String}

/-- The step that shuts down a manager once more, by its name. -/
theorem perform_shutdownManager_of_shutDown
    (hseat : h.state.managers.get? number = some seat) (hdown : seat.manager.shutDown = true)
    (hname : h.state.managers.number? name = some number) (run : Script → Act Script Unit)
    (fuel : Nat) : (perform run fuel (.shutdownManager name)).on h = (.ok .done, h) := by
  rw [on_eq_ok_iff, perform]
  unfold withManager holding withNamed
  simp only [ends_bind, ends_residents, hname, ends_around]
  -- the manager is in use meanwhile, which changes nothing about it
  have hsame := on_eq_ok_iff.1 (shutdownManager_of_shutDown (h := { h with
    state := { h.state with inUse := [.manager number] ++ h.state.inUse } }) hseat hdown)
  refine hsame.imp (fun _ h' hh => ?_) fun _ _ hfalse => hfalse
  rw [hh.2]
  exact ⟨rfl, rfl⟩

/-- The same on another thread. -/
theorem perform_offThread_shutdownManager_of_shutDown
    (hseat : h.state.managers.get? number = some seat) (hdown : seat.manager.shutDown = true)
    (hname : h.state.managers.number? name = some number) (run : Script → Act Script Unit)
    (fuel : Nat) :
    (perform run fuel (.offThread (.shutdownManager name))).on h = (.ok .done, h) := by
  rw [on_eq_ok_iff, perform]
  unfold Host.offThread
  simp only [ends_bind, ends_residents, ends_around]
  have hsame := on_eq_ok_iff.1 (perform_shutdownManager_of_shutDown (h := { h with
    state := { h.state with onThread := false } }) hseat hdown hname run fuel)
  refine hsame.imp (fun _ h' hh => ?_) fun _ _ hfalse => hfalse
  rw [hh.1, hh.2]
  exact ⟨rfl, rfl⟩

end AtRest

/-- **Shutting down is final.** Nothing ever waits for a manager that was shut down: not on a new
host, nor after any course from there, nor while the scripts run that a step calls back. On
every such host – so also in the middle of a callback – the following holds of each manager.

To shut it down marks it, whatever comes of the call, and off the runner's own thread that is a
fault. Once it is marked, take any course of steps from there, whatever comes of each. The
manager is still marked, it shows the total, the stubs and the sums of its latest pass as it
did, and no pass is scheduled for it. Whatever was seen of passes meanwhile, stubs enumerated or
memory granted, is the work of another manager that was not shut down. A pass of its own, asked
for or queued, changes nothing about the host, and nor does it to shut down the manager again,
which never faults. -/
theorem shutdown_is_final :
    (∀ runner platform steps h, Course (Host.new runner platform) steps h →
      Sealed h.state.managers) ∧
    (∀ run : Script → Act Script Unit,
      (∀ script, (run script).Preserves (OnManagers Sealed) (OnManagers Sealed)) →
        ∀ fuel step, (perform run fuel step).Preserves (OnManagers Sealed) (OnManagers Sealed)) ∧
    ∀ (h : Host Script) (number : Nat) (seat : ManagerSeat Script), Sealed h.state.managers →
      h.state.managers.get? number = some seat →
        (Host.shutdownManager number).Ends h (fun _ => IsShut number) (fun _ => IsShut number) ∧
        (seat.manager.shutDown = true → ∀ steps h', Course h steps h' →
          (∃ seat', h'.state.managers.get? number = some seat' ∧
            seat'.manager.shutDown = true ∧
            seat'.manager.available = seat.manager.available ∧
            seat'.manager.lastStats = seat.manager.lastStats ∧
            seat'.manager.lastBreakdown = seat.manager.lastBreakdown ∧
            seat'.manager.isScheduled h'.state.handles = false) ∧
          (∃ news, h'.state.events = news ++ h.state.events ∧
            ∀ e ∈ news, e.isOfPass = true → ∃ other, other ≠ number ∧
              IsWorkOf h.state.managers h'.state.managers other e) ∧
          (∀ run : Script → Act Script Unit, ((Host.manage run number).on h').2 = h') ∧
          (Host.shutdownManager number).on h' = (.ok (), h') ∧
          ∀ fuel name, h'.state.managers.number? name = some number →
            (exec (fuel + 1) (.shutdownManager name)).on h' = (.ok .done, h') ∧
            (exec (fuel + 1) (.offThread (.shutdownManager name))).on h' = (.ok .done, h')) := by
  refine ⟨fun runner platform steps h hcourse => ?_, fun run hrun fuel step => ?_,
    fun h number seat hsealed hseat => ⟨ends_shutdownManager hseat,
      fun hdown steps h' hcourse => ?_⟩⟩
  · exact hcourse.preserves preserves_exec_sealed (sealed_new runner platform)
  · exact preserves_perform_sealed hrun fuel step
  have hsealed' : Sealed h'.state.managers := hcourse.preserves preserves_exec_sealed hsealed
  have hsince : Since h h' := hcourse.preserves (preserves_exec_since h) (.refl h)
  obtain ⟨seat', hseat', hbecomes⟩ := hsince.stays hseat
  obtain ⟨hdown', hpublished⟩ := hbecomes.hasSealed hdown
  obtain ⟨havailable, hstats, hbreakdown⟩ : _ ∧ _ ∧ _ := by
    simpa only [Manager.published, Prod.mk.injEq] using hpublished
  have hatRest := hsealed' number seat' hseat'
  refine ⟨⟨seat', hseat', hdown', havailable, hstats, hbreakdown,
    hatRest.isScheduled hdown' _⟩, ?_, fun run => ?_, ?_, fun fuel name hname => ⟨?_, ?_⟩⟩
  · obtain ⟨news, hevents, hnews⟩ := hsince.seen
    refine ⟨news, hevents, fun e he hpass => ?_⟩
    obtain ⟨other, hup, hwork⟩ := hnews e he hpass
    refine ⟨other, fun hsame => ?_, hup, hwork⟩
    exact Bool.noConfusion ((hup seat (hsame ▸ hseat)).symm.trans hdown)
  · exact state_manage_of_shutDown run hseat' hatRest hdown'
  · exact shutdownManager_of_shutDown hseat' hdown'
  · exact perform_shutdownManager_of_shutDown hseat' hdown' hname _ fuel
  · exact perform_offThread_shutdownManager_of_shutDown hseat' hdown' hname _ fuel

/-- A pass waits when the manager is shut down on another thread. -/
def hastyEnd : List Step :=
  [.newManager "gpu" (.fields { total := some 1000 }) ["tab"] none [],
    .newStub "tab" (some ⟨1, true, 0⟩) 300 [] none [] [],
    .addGroup "gpu" "tiles" 7,
    .manage "gpu",
    .schedule "gpu" true,
    .offThread (.shutdownManager "gpu")]

/-- What is tried afterwards: running what waits, asking for passes – at once, by windows and by
growth – a pass on the wrong thread and one on the right one. -/
def aftermath : List Step :=
  [.runUntilIdle, .schedule "gpu" false, .setWindows "gpu" (some 2),
    .report "gpu" "tiles" 0 5000, .advance 1000000000, .offThread (.manage "gpu"),
    .manage "gpu"]

/-- Nothing comes of it. -/
theorem shutdown_is_final_aftermath :
    ∃ h h' seat seat', Course (Host.new "main" .desktop) hastyEnd h ∧ Course h aftermath h' ∧
      Sealed h.state.managers ∧
      h.state.managers.get? 0 = some seat ∧ seat.manager.shutDown = true ∧
      seat.manager.lastBreakdown.visibleStubs = 1 ∧
      h'.state.managers.get? 0 = some seat' ∧
      seat'.manager.lastBreakdown = seat.manager.lastBreakdown ∧
      seat'.manager.isScheduled h'.state.handles = false ∧
      (∃ news, h'.state.events = news ++ h.state.events ∧ ∀ e ∈ news, e.isOfPass = false) ∧
      (Host.shutdownManager 0).on h' = (.ok (), h') := by
  have hmarked : (((endOf 9 hastyEnd (Host.new "main" .desktop)).state.managers.get? 0).map
      fun seat => (seat.manager.shutDown, seat.manager.lastBreakdown.visibleStubs))
        = some (true, 1) := by decide +kernel
  have hsole : (endOf 9 (hastyEnd ++ aftermath)
      (Host.new "main" .desktop)).state.managers.members.length = 1 := by decide +kernel
  have hcourse := course_endOf 9 hastyEnd (Host.new "main" .desktop)
  generalize hh : endOf 9 hastyEnd (Host.new "main" .desktop) = h at hmarked hcourse
  have hcourse' := course_endOf 9 aftermath h
  have hlast : endOf 9 aftermath h = endOf 9 (hastyEnd ++ aftermath)
      (Host.new "main" .desktop) := by
    rw [← hh]
    exact (List.foldl_append ..).symm
  rw [← hlast] at hsole
  obtain ⟨seat, hseat, hpair⟩ := Option.map_eq_some_iff.1 hmarked
  obtain ⟨hdown, hvisible⟩ := Prod.mk.inj hpair
  obtain ⟨hsealed, -, hfinal⟩ := shutdown_is_final
  have hsealed := hsealed _ _ _ _ hcourse
  obtain ⟨⟨seat', hseat', -, -, -, hbreakdown, hscheduled⟩, ⟨news, hevents, hnews⟩, -, hagain, -⟩ :=
    (hfinal h 0 seat hsealed hseat).2 hdown aftermath _ hcourse'
  refine ⟨h, _, seat, seat', hcourse, hcourse', hsealed, hseat, hdown, hvisible, hseat',
    hbreakdown, hscheduled, ⟨news, hevents, fun e he => ?_⟩, hagain⟩
  refine Bool.eq_false_iff.2 fun hpass => ?_
  -- there is no other manager whose work it could be
  obtain ⟨other, hother, -, seat'', hseat'', -⟩ := hnews e he hpass
  have hlt := (List.getElem?_eq_some_iff.1 hseat'').1
  omega

end Compositor.Step
