import Mathlib
import Compositor.Proofs.Host.Publishing
import Compositor.Proofs.Scenario.Managed

/-!
# What every pass publishes

Every step keeps managers within their totals, and grants and publishes nothing unless a pass
begins in it; so do the scripts that are called back, which are made of steps. Hence a pass
that is done with these scripts, after any course of steps and inside any callback, shows what
it pushed, if none of the stubs that it calls back starts another one.
-/

namespace Compositor.Step

open Compositor.Action Host

/-! ## Every step -/

theorem preserves_exec_solvent (fuel : Nat) (step : Step) :
    (exec fuel step).Preserves Solvent Solvent :=
  preserves_exec (fun _ : Unit => passing_solvent.toManaged) (fun _ hrun _ =>
    passing_solvent.manage (fun _ => preserves_change fun _ hh => hh.same rfl rfl) (hrun ())) fuel
      step ()

theorem preserves_exec_quiet (base : Host Script) (fuel : Nat) (step : Step) :
    (exec fuel step).Preserves (Host.Quiet base) (Host.Quiet base) :=
  preserves_exec managed_quiet (fun _ => preserves_manage_quiet) fuel step base

theorem preserves_runScript_solvent (fuel : Nat) (script : Script) :
    (runScript fuel script).Preserves Solvent Solvent :=
  .forM fun inner _ => (preserves_exec_solvent fuel inner).bind fun _ => passing_solvent.emit rfl

theorem preserves_runScript_quiet (base : Host Script) (fuel : Nat) (script : Script) :
    (runScript fuel script).Preserves (Host.Quiet base) (Host.Quiet base) :=
  .forM fun inner _ => (preserves_exec_quiet base fuel inner).bind fun _ =>
    (managed_quiet base).emit rfl

/-! ## Every pass -/

/-- **What is published is what was pushed.** What any manager shows that it charged stays within
the total that it shows: after every course of steps from a new host, whatever comes of each,
and inside every callback.

Take such a host, and a pass on it of a manager that is up, and let the pass run to its end.
It has listed the stubs and made a plan; suppose that the manager was not shut down until then,
that the stubs are distinct, and that no other pass began while the plan was handed out. Then
the total that the manager shows is what was fixed, else what the driver reported if that is not
zero, else what the platform assumes; it has one entry for each of the stubs that were listed
and none from earlier passes; what each of them was granted last is its entry; and the sums
and the counts are those of the stubs whose surfaces were visible, or hidden. -/
theorem published_is_pushed :
    (∀ runner platform steps h, Course (Host.new runner platform) steps h → Solvent h) ∧
    (∀ run : Script → Act Script Unit, (∀ script, (run script).Preserves Solvent Solvent) →
      ∀ fuel step, (perform run fuel step).Preserves Solvent Solvent) ∧
    ∀ (fuel number : Nat) (h h' : Host Script) (seat : ManagerSeat Script), Solvent h →
      h.state.managers.get? number = some seat → seat.manager.shutDown = false →
      (Host.manage (runScript fuel) number).on h = (.ok (), h') →
        ∃ ids listed plan planned,
          (enumerate (runScript fuel) number).on (cleared h number seat) = (.ok ids, listed) ∧
          (planPass (runScript fuel) (seat.manager.bounds (passTotal seat number listed)) ids).on
            listed = (.ok plan, planned) ∧
          ∀ seat₁, planned.state.managers.get? number = some seat₁ →
            seat₁.manager.shutDown = false → ids.Nodup → begun h' = begun planned →
              ∃ seat', h'.state.managers.get? number = some seat' ∧
                seat'.manager.available = (seat.manager.fixedTotal <|>
                  ((listed.state.managers.get? number).bind fun s => s.owner.driverTotal).filter
                    fun total => 0 < total).getD seat.manager.limits.defaultTotal ∧
                Agrees listed ids seat'.manager h' := by
  refine ⟨fun runner platform steps h hcourse => ?_, fun run hrun fuel step => ?_,
    fun fuel number h h' seat hh hseat hup hon => ?_⟩
  · exact hcourse.preserves preserves_exec_solvent (.new runner platform)
  · exact preserves_perform passing_solvent.toManaged hrun
      (passing_solvent.manage (fun _ => preserves_change fun _ hh => hh.same rfl rfl) hrun) fuel
        step
  · obtain ⟨ids, listed, plan, planned, henumerated, hplanned, hagrees⟩ := agrees_of_manage
      (preserves_runScript_solvent fuel) (fun base => preserves_runScript_quiet base fuel) hh hseat
        hup hon
    refine ⟨ids, listed, plan, planned, henumerated, hplanned,
      fun seat₁ hseat₁ hup₁ hids hbegun => ?_⟩
    obtain ⟨seat', hseat', havailable, hA⟩ := hagrees seat₁ hseat₁ hup₁ hids hbegun
    exact ⟨seat', hseat', havailable.trans (passTotal_eq ..), hA⟩

/-- A stub that has the other one hidden, and another pass run, when it is granted memory. -/
def jealous : List Step :=
  [.newStub "first" (some ⟨1, true, 9⟩) 300 [] none []
      [.editStub "first" { onGrant := some [] }, .editStub "second" { visible := some false },
        .manage "gpu"],
    .newStub "second" (some ⟨2, true, 5⟩) 300 [] none [] [],
    .newManager "gpu" (.fields { total := some 1000 }) ["first", "second"] none []]

/-- **What is published need not be what was pushed**, if another pass begins while one is handed
out: the manager shows what the other pass had for the stub that comes later, and the stub has
what the first pass had for it. -/
theorem pushed_beside_published :
    ∃ h h' seat stub stat, Run (Host.new "main" .desktop) jealous h ∧
      (Host.manage (runScript 8) 0).on h = (.ok (), h') ∧
      h'.state.managers.get? 0 = some seat ∧ seat.manager.lastStats.keys = [0, 1] ∧
      h'.state.stubs.get? 1 = some stub ∧ seat.manager.lastStats.find? 1 = some stat ∧
      stub.allocation = ⟨500, true, true⟩ ∧ stat.allocation = ⟨300, false, true⟩ := by
  obtain ⟨h, hrun, hanswers, hshown, hstub⟩ := Run.exists_of_after? 9 jealous
    (h := Host.new "main" .desktop)
    (P := fun h => ((Host.manage (runScript 8) 0).on h).1.toOption = some () ∧
      (((Host.manage (runScript 8) 0).on h).2.state.managers.get? 0).map (fun seat =>
        (seat.manager.lastStats.keys, (seat.manager.lastStats.find? 1).map StubStat.allocation))
          = some ([0, 1], some ⟨300, false, true⟩) ∧
      (((Host.manage (runScript 8) 0).on h).2.state.stubs.get? 1).map StubRecord.allocation
        = some ⟨500, true, true⟩)
    (by cbv)
  obtain ⟨seat, hseat, hshown⟩ := Option.map_eq_some_iff.1 hshown
  obtain ⟨hkeys, hstat⟩ := Prod.mk.inj hshown
  obtain ⟨stat, hfound, hstat⟩ := Option.map_eq_some_iff.1 hstat
  obtain ⟨stub, hget, hstub⟩ := Option.map_eq_some_iff.1 hstub
  exact ⟨h, _, seat, stub, stat, hrun, on_eq_ok_of_toOption hanswers, hseat, hkeys, hget, hfound,
    hstub, hstat⟩

/-- Between two passes a stub is hidden, and another comes that has no surface and shares a group
with the one behind, which sets the number of windows when it is asked. -/
def changing : List Step :=
  [.newStub "front" (some ⟨1, true, 9⟩) 300 [] none [] [],
    .newStub "behind" (some ⟨2, true, 5⟩) 200 [] none [.setWindows "gpu" (some 2)] [],
    .newManager "gpu" (.fields {}) ["front", "behind", "worker"] (some 900) [],
    .manage "gpu",
    .newStub "worker" none 0 ["behind"] none [] [],
    .editStub "front" { visible := some false }]

/-- The second pass is about the three stubs alone. -/
theorem published_is_pushed_changing :
    ∃ h h' listed seat', Run (Host.new "main" .desktop) changing h ∧ Solvent h ∧
      (Host.manage (runScript 8) 0).on h = (.ok (), h') ∧
      h'.state.managers.get? 0 = some seat' ∧ Agrees listed [0, 1, 2] seat'.manager h' ∧
      seat'.manager.available = 900 ∧ seat'.manager.lastBreakdown.visibleBytes = 450 ∧
      seat'.manager.lastBreakdown.hiddenBytes = 300 := by
  have hafter : (after? 9 changing (Host.new "main" .desktop)).map (fun h =>
      ((((Host.manage (runScript 8) 0).on h).1.toOption,
        begun ((Host.manage (runScript 8) 0).on h).2,
        (((Host.manage (runScript 8) 0).on h).2.state.managers.get? 0).map fun s =>
          (s.manager.lastBreakdown.visibleBytes, s.manager.lastBreakdown.hiddenBytes)),
      -- how the pass goes, as far as it matters
      (h.state.managers.get? 0).map fun seat =>
        (seat.manager.shutDown, seat.manager.fixedTotal,
          match (enumerate (runScript 8) 0).on (cleared h 0 seat) with
          | (.error _, _) => none
          | (.ok ids, listed) =>
            match (planPass (runScript 8) (seat.manager.bounds (passTotal seat 0 listed)) ids).on
                listed with
            | (.error _, _) => none
            | (.ok _, planned) => some (ids,
                (listed.state.managers.get? 0).bind fun s => s.owner.driverTotal,
                (planned.state.managers.get? 0).map fun s => s.manager.shutDown, begun planned))))
      = some ((some (), 2, some (450, 300)),
          some (false, none, some ([0, 1, 2], some 900, some false, 2))) := by
    cbv
  obtain ⟨h, hafter, hgoes⟩ := Option.map_eq_some_iff.1 hafter
  have hrun := Run.of_after? hafter
  obtain ⟨hends, hgoes⟩ := Prod.mk.inj hgoes
  obtain ⟨hanswers, hends⟩ := Prod.mk.inj hends
  obtain ⟨hbegun, hsums⟩ := Prod.mk.inj hends
  obtain ⟨seat, hseat, hgoes⟩ := Option.map_eq_some_iff.1 hgoes
  obtain ⟨hup, hgoes⟩ := Prod.mk.inj hgoes
  obtain ⟨hfixed, hgoes⟩ := Prod.mk.inj hgoes
  obtain ⟨hsolvent, -, hpushed⟩ := published_is_pushed
  have hh := hsolvent _ _ _ _ hrun.course
  have hon := on_eq_ok_of_toOption hanswers
  generalize ((Host.manage (runScript 8) 0).on h).2 = h' at hon hbegun hsums
  obtain ⟨ids, listed, plan, planned, henumerated, hplanned, hagrees⟩ :=
    hpushed 8 0 h h' seat hh hseat hup hon
  simp only [henumerated, hplanned, Option.some.injEq, Prod.mk.injEq] at hgoes
  obtain ⟨rfl, hdriver, hstill, hbegun'⟩ := hgoes
  obtain ⟨seat₁, hseat₁, hup₁⟩ := Option.map_eq_some_iff.1 hstill
  obtain ⟨seat', hseat', havailable, hA⟩ :=
    hagrees seat₁ hseat₁ hup₁ (by decide) (hbegun.trans hbegun'.symm)
  rw [hseat', Option.map_some] at hsums
  rw [hfixed, hdriver] at havailable
  obtain ⟨hvisible, hhidden⟩ := Prod.mk.inj (Option.some.inj hsums)
  exact ⟨h, h', listed, seat', hrun, hh, hon, hseat', hA, havailable, hvisible, hhidden⟩

end Compositor.Step
