import Compositor.Proofs.Host.Enduring
import Compositor.Proofs.Scenario.Run

/-!
# What every step preserves

Every step of a scenario is put together from the operations of a host, and each of these from
single changes. So a property that endures single changes is preserved by every step, by cases
on the step, as soon as what it calls back preserves it; and then by steps within steps, by
induction on the fuel.

A step *stirs* if it moves the clock ahead, drops what waits, tells the runner whether to take
tasks, or deals with a scrollbar otherwise than by looking at it. A property that only lasts while
nothing stirs is preserved by all other steps.
-/

namespace Compositor.Step

open Compositor.Action Host

variable {P E : Host Script → Prop}

/-- A flag that tells whether a name was known, and the name given up. -/
theorem preserves_known {α : Type} {find : Residents Script → Option α}
    {f : Residents Script → Residents Script}
    (hf : ∀ h, P h → P { h with state := f h.state }) :
    (do
      let known := (find (← residents)).isSome
      change f
      return .flag known : Act Script Reply).Preserves P E :=
  preserves_residents.bind fun _ => .bind (preserves_change hf) fun _ => .pure _

/-- Whether the step moves the clock ahead, changes which tasks wait or may wait other than by
posting, or changes a scrollbar or has it fade. -/
def stirs : Step → Bool
  | .offThread step => step.stirs
  | .advance _ | .runNext | .clearPending | .accept _ => true
  | .scroll .. | .pinchBegin _ | .pinchUpdate _ | .pinchEnd .. | .startFade .. => true
  | _ => false

/-- **What steps that do not stir call back preserves the property.** -/
structure Answers (run : Script → Act Script Unit) (P E : Host Script → Prop) : Prop where
  manage (number : Nat) : (Host.manage run number).Preserves P E
  limitNow (number : Nat) : (Host.limitNow run number).Preserves P E
  runHeld (name : String) : (Host.runHeld run name).Preserves P E
  idle (fuel : Nat) : (EventLoop.runUntilIdle (runTask run) fuel).Preserves P E

/-- **Every step that does not stir preserves what lasts**, if what it calls back does. -/
theorem preserves_perform_lasting (hP : Lasting P E) {run : Script → Act Script Unit}
    (hback : Answers run P E) (fuel : Nat) :
    ∀ step : Step, step.stirs = false → (perform run fuel step).Preserves P E
  | .offThread step, hquiet => by
    rw [perform]
    exact hP.indifferent.offThread (preserves_perform_lasting hP hback fuel step hquiet)
  | .runUntilIdle, _ => by
    rw [perform]
    exact (hback.idle fuel).bind fun _ => .pure _
  | .runnerInfo, _ => by rw [perform]; exact preserves_residents.bind fun _ => .pure _
  | .post .., _ => by rw [perform]; exact hP.postScript _ _ _ _ _
  | .hold .., _ => by rw [perform]; exact hP.hold _ _ _ _
  | .runHeld name, _ => by rw [perform]; exact hback.runHeld name
  | .newProxy name, _ => by rw [perform]; exact hP.newProxy name
  | .shutdownProxy name, _ => by
    rw [perform]
    exact preserves_lookUp fun number => (hP.shutdownProxy number).bind fun _ => .pure _
  | .dropProxy name, _ => by
    rw [perform]
    exact preserves_known fun _ hh => hP.gated hh (.forget _ name)
  | .cancel name, _ => by rw [perform]; exact hP.cancelHandle name
  | .newSlot _, _ => by
    rw [perform]
    exact .bind (preserves_change fun _ hh => hP.aside hh rfl) fun _ => .pure _
  | .cancelSlot name, _ => by rw [perform]; exact hP.cancelSlot name
  | .newContext name _ _, _ => by
    rw [perform]
    exact .bind (preserves_change fun _ hh => hP.contextMade hh name _) fun _ => .pure _
  | .dropContext name, _ => by
    rw [perform]
    exact preserves_known fun _ hh => hP.contextDropped hh name
  | .newClient name _, _ => by
    rw [perform]
    exact .bind (preserves_change fun _ hh => hP.clientMade hh name _) fun _ => .pure _
  | .dropClient name, _ => by
    rw [perform]
    exact preserves_known fun _ hh => hP.clientDropped hh name
  | .newLimiter .., _ => by rw [perform]; exact hP.newLimiter _ _ _ _ _
  | .startLimiter name, _ => by
    rw [perform]
    exact preserves_lookUp fun number => (hP.startLimiter number).bind fun _ => .pure _
  | .stopLimiter name, _ => by
    rw [perform]
    exact preserves_lookUp fun number => (hP.stopLimiter number).bind fun _ => .pure _
  | .limitNow name, _ => by
    rw [perform]
    exact preserves_lookUp fun number => (hback.limitNow number).bind fun _ => .pure _
  | .dropLimiter name, _ => by rw [perform]; exact preserves_known fun _ hh => hP.unnamed hh name
  | .newRegistry .., _ => by rw [perform]; exact hP.newRegistry _ _ _ _
  | .registryStart name context, _ => by
    rw [perform]
    refine preserves_residents.bind fun r => ?_
    split
    · exact (hP.registryStart name _).bind fun _ => .pure _
    · exact .pure _
  | .registryStop name id, _ => by
    rw [perform]
    exact preserves_lookUp fun _ => (hP.registryStop name id).bind fun _ => .pure _
  | .registryStopAll name, _ => by
    rw [perform]
    exact preserves_lookUp fun _ => (hP.registryStopAll name).bind fun _ => .pure _
  | .registrySuspend _ _, _ => by
    rw [perform]
    exact preserves_lookUp fun _ => .bind (preserves_change fun _ hh => hP.aside hh rfl)
      fun _ => .pure _
  | .registryIsActive _ _, _ => by
    rw [perform]
    exact preserves_residents.bind fun _ => preserves_withNamed _ fun _ => .pure _
  | .dropRegistry name, _ => by
    rw [perform]
    exact preserves_residents.bind fun _ => (hP.dropRegistry name).bind fun _ => .pure _
  | .newScrollbar name _ _, _ => by
    rw [perform]
    exact .bind (preserves_change fun _ hh => hP.barMade hh name _) fun _ => .pure _
  | .animate name time, _ => by rw [perform]; exact hP.animateNamed name time
  | .newStub .., _ => by
    rw [perform]
    exact .bind (preserves_change fun _ hh => hP.restubbed hh (.enroll ..)) fun _ => .pure _
  | .editStub _ edit, _ => by
    rw [perform]
    exact preserves_lookUp fun number => .bind
      (preserves_change fun _ hh => hP.restubbed hh (.edit number edit)) fun _ => .pure _
  | .newManager .., _ => by rw [perform]; exact hP.newManager _ _
  | .editOwner name edit, _ => by
    rw [perform]
    exact preserves_lookUp fun number => .bind
      (preserves_change fun _ hh => hP.evolved hh fun _ _ => .edit edit) fun _ => .pure _
  | .manage name, _ => by
    rw [perform]
    exact hP.indifferent.withManager name fun number => (hback.manage number).bind fun _ => .pure _
  | .schedule name immediate, _ => by
    rw [perform]
    exact hP.indifferent.withManager name fun number =>
      (hP.schedule number immediate).bind fun _ => .pure _
  | .setWindows name count, _ => by
    rw [perform]
    exact hP.indifferent.withManager name fun number =>
      (hP.setWindows number count).bind fun _ => .pure _
  | .shutdownManager name, _ => by
    rw [perform]
    exact hP.indifferent.withManager name fun number =>
      (hP.shutdownManager number).bind fun _ => .pure _
  | .dropManager name, _ => by
    rw [perform]
    exact preserves_known fun _ hh => hP.managerDropped hh name
  | .usage name, _ => by
    rw [perform]
    exact hP.indifferent.withSeat name fun _ => (Preserves.ofExcept hP.halted _).bind fun _ =>
      .pure _
  | .lastPass name keep, _ => by rw [perform]; exact hP.indifferent.showLastPass name keep
  | .snapshot _, _ => by
    rw [perform]
    exact preserves_residents.bind fun _ => preserves_withNamed _ fun _ => .pure _
  | .summary name, _ => by rw [perform]; exact hP.indifferent.withSeat name fun _ => .pure _
  | .addGroup .., _ => by
    rw [perform]
    exact hP.indifferent.openGroup _ _ _ _ (fun number => hP.addGroup number _) hP.releaseHandle
  | .createGroup .., _ => by
    rw [perform]
    exact hP.indifferent.openGroup _ _ _ _ (fun number => hP.addGroup number _) hP.releaseHandle
  | .dropGroup group, _ => by rw [perform]; exact hP.indifferent.dropGroup group hP.releaseHandle
  | .removeGroup manager group, _ => by
    rw [perform]
    exact hP.indifferent.withGroup manager group fun number id =>
      (hP.removeGroup number id).bind fun _ => .pure _
  | .report manager group old new, _ => by
    rw [perform]
    exact hP.indifferent.withGroup manager group fun number id =>
      (hP.reportGroup number id old new).bind fun _ => .pure _
  | .groupSize manager group, _ => by
    rw [perform]
    exact hP.indifferent.withGroup manager group fun number _ =>
      (preserves_seat? number).bind fun found => preserves_withNamed found fun _ => .pure _
  | .reportHandle group old new, _ => by
    rw [perform]
    exact preserves_lookUp fun handle => (hP.reportHandle handle old new).bind fun _ => .pure _
  | .handleSize _, _ => by
    rw [perform]
    exact preserves_residents.bind fun _ => preserves_withNamed _ fun _ => .pure _

/-- **Every step preserves what endures single changes**, if what it calls back does. -/
theorem preserves_perform_enduring (hP : Enduring P E) {run : Script → Act Script Unit}
    (hback : CallsBack run P E) (fuel : Nat) (step : Step) :
    (perform run fuel step).Preserves P E := by
  have hanswers : Answers run P E :=
    ⟨hback.manage, hback.limitNow, hback.runHeld,
      EventLoop.preserves_runUntilIdle hP.halted fun _ _ _ => hback.due⟩
  cases step with
  | offThread step =>
    rw [perform]
    exact hP.indifferent.offThread (preserves_perform_enduring hP hback fuel step)
  | advance span =>
    rw [perform]
    exact (EventLoop.preserves_advance hP.halted (fun _ _ _ => hback.due)
      (fun _ _ hh => hP.moved hh) fuel span).bind fun _ => .pure _
  | runNext =>
    rw [perform]
    exact (EventLoop.preserves_runNext fun _ _ _ => hback.due).bind fun _ => .pure _
  | clearPending =>
    rw [perform]
    exact .bind (.write fun _ hh => hP.cleared hh) fun _ => .pure _
  | accept on =>
    rw [perform]
    exact .bind (.write fun _ hh => hP.accepts hh on) fun _ => .pure _
  | scroll name time =>
    rw [perform]
    exact preserves_now.bind fun _ => hP.changeScrollbar name _
  | pinchBegin name => rw [perform]; exact hP.changeScrollbar name _
  | pinchUpdate name => rw [perform]; exact hP.changeScrollbar name _
  | pinchEnd name time =>
    rw [perform]
    exact preserves_now.bind fun _ => hP.changeScrollbar name _
  | startFade name proxy interval onFrame => rw [perform]; exact hP.startFade _ _ _ _
  | _ => exact preserves_perform_lasting hP.toLasting hanswers fuel _ rfl

/-- **So does every step within steps**, whatever the fuel. What calls back may preserve one
property only while the scripts preserve others, so this is about properties that are preserved
together. -/
theorem preserves_exec_enduring {ι : Type} {P E : ι → Host Script → Prop}
    (hP : ∀ i, Enduring (P i) (E i))
    (hback : ∀ run : Script → Act Script Unit,
      (∀ i script, (run script).Preserves (P i) (E i)) → ∀ i, CallsBack run (P i) (E i))
    (fuel : Nat) (step : Step) (i : ι) : (exec fuel step).Preserves (P i) (E i) := by
  induction fuel generalizing step i with
  | zero => exact .halt (hP i).halted _
  | succ fuel ih =>
    have hrun (i : ι) (script : Script) : (script.forM fun inner => do
        note inner (← exec fuel inner) : Act Script PUnit).Preserves (P i) (E i) :=
      .forM fun inner _ => (ih inner i).bind fun _ => (hP i).emit rfl rfl rfl
    exact preserves_perform_enduring (hP i) (hback _ hrun i) fuel step

end Compositor.Step
