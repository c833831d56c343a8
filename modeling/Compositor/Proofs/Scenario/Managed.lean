import Compositor.Proofs.Host.Managed
import Compositor.Proofs.Scenario.Enduring

/-!
# What steps do with managers

A property that survives single changes of managers, whatever goes on beside them, endures every
single change. So it is preserved by every step as soon as passes preserve it and the scripts do
that are run meanwhile.
-/

namespace Compositor.Step

open Compositor.Action Host

variable {P E : Host Script → Prop}

/-- **Every step preserves what single changes of managers do not touch.** -/
theorem preserves_perform (hP : Managed P E) {run : Script → Act Script Unit}
    (hrun : ∀ script, (run script).Preserves P E)
    (hmanage : ∀ number, (Host.manage run number).Preserves P E) (fuel : Nat) (step : Step) :
    (perform run fuel step).Preserves P E :=
  preserves_perform_enduring hP.enduring (hP.callsBack hrun hmanage) fuel step

/-- The same for steps within steps, whatever the fuel. What a pass preserves may depend on the
host that it starts from, so this is about properties that are preserved together. -/
theorem preserves_exec {ι : Type} {P E : ι → Host Script → Prop} (hP : ∀ i, Managed (P i) (E i))
    (hmanage : ∀ run : Script → Act Script Unit,
      (∀ i script, (run script).Preserves (P i) (E i)) →
        ∀ i number, (Host.manage run number).Preserves (P i) (E i))
    (fuel : Nat) (step : Step) (i : ι) : (exec fuel step).Preserves (P i) (E i) :=
  preserves_exec_enduring (fun i => (hP i).enduring)
    (fun run hrun i => (hP i).callsBack (hrun i) (hmanage run hrun i)) fuel step i

/-- What looks at managers alone, and survives what passes do to them, is preserved by every step. -/
theorem preserves_exec_onManagers {R : Roster (ManagerSeat Script) → Prop}
    (hP : Passing (OnManagers R) E) (fuel : Nat) (step : Step) :
    (exec fuel step).Preserves (OnManagers R) E :=
  preserves_exec (fun _ : Unit => hP.toManaged) (fun _ hrun _ =>
    hP.manage (fun _ => preserves_change fun _ hh => hh) (hrun ())) fuel step ()

end Compositor.Step
