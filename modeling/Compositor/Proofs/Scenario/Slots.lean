import Compositor.Proofs.Host.Gate
import Compositor.Proofs.Host.Slots
import Compositor.Proofs.Scenario.Run

/-!
# At most one live task for a slot

A *slotting* step posts a task or keeps one, whatever guards it, runs what is kept, cancels
handles, empties slots, or pumps the runner, on any thread, beside gates that open and shut.
What tasks do consists of such steps, too; so tasks may be run late, in any order, or never, and a
slot may be filled again and emptied from inside a task that it guards itself.

In every course of slotting steps, whatever comes of each, the calls of a slot go on from those
before; and after any calls of a slot at most one of all the tasks that it ever gave back is live.
-/

namespace Compositor.Step

open Compositor.Action Host SlotCall

/-- **A step about tasks and what guards them**, and so is whatever the tasks do. The slot of a
name is not made anew. -/
inductive Slotting (name : String) : Step → Prop where
  | offThread {step : Step} (hstep : Slotting name step) : Slotting name (.offThread step)
  | runUntilIdle : Slotting name .runUntilIdle
  | advance (span : Nanos) : Slotting name (.advance span)
  | runNext : Slotting name .runNext
  | clearPending : Slotting name .clearPending
  | accept (on : Bool) : Slotting name (.accept on)
  | runnerInfo : Slotting name .runnerInfo
  | post (label : String) (delay : Nanos) (guard : Guard) (proxy : Option String)
    {script : Script} (hscript : ∀ step ∈ script, Slotting name step) :
    Slotting name (.post label delay guard proxy script)
  | hold (other label : String) (guard : Guard) {script : Script}
    (hscript : ∀ step ∈ script, Slotting name step) :
    Slotting name (.hold other label guard script)
  | runHeld (other : String) : Slotting name (.runHeld other)
  | newProxy (proxy : String) : Slotting name (.newProxy proxy)
  | shutdownProxy (proxy : String) : Slotting name (.shutdownProxy proxy)
  | dropProxy (proxy : String) : Slotting name (.dropProxy proxy)
  | cancel (other : String) : Slotting name (.cancel other)
  | newSlot {other : String} (hne : other ≠ name) : Slotting name (.newSlot other)
  | cancelSlot (other : String) : Slotting name (.cancelSlot other)

/-- A script of slotting steps. -/
def SlottingScript (name : String) (script : Script) : Prop := ∀ step ∈ script, Slotting name step

variable {name : String} {before calls : List SlotCall} {h₀ h h' : Host Script}

/-- The calls of a slot go on from those before, and every task does what slotting steps do. -/
abbrev Slots (name : String) (before : List SlotCall) : Host Script → Prop :=
  Continuing (SlottingScript name) name before

theorem indifferent_slots : Indifferent (Slots name before) (Slots name before) where
  onThread _ _ hC := hC.change
  inUse _ _ hC := hC.change
  groupIds _ _ hC := hC.change
  groupHandles _ _ hC := hC.change
  snapshots _ _ hC := hC.change
  haltedOnThread _ _ hC := hC.change
  haltedInUse _ _ hC := hC.change

/-! ## Every slotting step -/

/-- **Every slotting step goes on with the calls**, if the slotting scripts that are run
meanwhile do. -/
theorem preserves_perform_slots {run : Script → Act Script Unit}
    (hrun : ∀ script, SlottingScript name script →
      (run script).Preserves (Slots name before) (Slots name before))
    (fuel : Nat) {step : Step} (hstep : Slotting name step) :
    (perform run fuel step).Preserves (Slots name before) (Slots name before) := by
  have hpopped := ends_popped_continuing hrun
  induction hstep with
  | offThread _ ih => rw [perform]; exact indifferent_slots.offThread ih
  | runUntilIdle =>
    rw [perform]
    exact (EventLoop.preserves_runUntilIdle (fun _ => id) hpopped fuel).bind fun _ => .pure _
  | advance span =>
    rw [perform]
    exact .bind (EventLoop.preserves_advance (fun _ => id) hpopped
      (fun l now hC _ _ => hC.change) fuel span) fun _ => .pure _
  | runNext => rw [perform]; exact (EventLoop.preserves_runNext hpopped).bind fun _ => .pure _
  | clearPending =>
    rw [perform]
    exact .bind (.write fun h hC => hC.change nofun) fun _ => .pure _
  | accept on =>
    rw [perform]
    exact .bind (.write fun h hC => hC.change) fun _ => .pure _
  | runnerInfo => rw [perform]; exact preserves_residents.bind fun _ => .pure _
  | post label delay guard proxy hscript =>
    rw [perform]
    exact preserves_postScript_continuing label delay guard proxy hscript
  | hold other label guard hscript =>
    rw [perform]
    exact preserves_hold_continuing other label guard hscript
  | runHeld other => rw [perform]; exact preserves_runHeld_continuing hrun other
  | newProxy proxy =>
    rw [perform]
    unfold Host.newProxy
    refine preserves_residents.bind fun r => ?_
    split
    · exact .pure _
    · exact .bind (preserves_change fun h hC => hC.change) fun _ => .pure _
  | shutdownProxy proxy =>
    rw [perform]
    refine preserves_lookUp fun number => .bind ?_ fun _ => .pure _
    exact preserves_shutdownProxy (fun _ => id) fun h p onThread hC _ => hC.change
  | dropProxy proxy =>
    rw [perform]
    exact preserves_residents.bind fun _ =>
      .bind (preserves_change fun h hC => hC.change) fun _ => .pure _
  | cancel other => rw [perform]; exact preserves_cancelHandle_continuing other
  | newSlot hne =>
    rw [perform]
    exact .bind (preserves_change fun h hC => hC.newSlot hne) fun _ => .pure _
  | cancelSlot other => rw [perform]; exact preserves_cancelSlot_continuing other

/-- The same for steps within steps, whatever the fuel. -/
theorem preserves_exec_slots (fuel : Nat) {step : Step} (hstep : Slotting name step) :
    (exec fuel step).Preserves (Slots name before) (Slots name before) := by
  induction fuel generalizing step with
  | zero => exact .halt (fun _ => id) _
  | succ fuel ih =>
    refine preserves_perform_slots (fun script hscript => ?_) fuel hstep
    refine .forM fun inner hinner => (ih (hscript inner hinner)).bind fun reply => ?_
    intro h hC
    exact hC.change

/-! ## The calls of a run -/

/-- What comes after some calls begins with them. -/
theorem Slots.fromNow (hG : Guarding (SlottingScript name) name calls h) : Slots name calls h :=
  ⟨[], by rwa [List.append_nil]⟩

/-- A course of slotting steps goes on with the calls. -/
theorem Slots.course {steps : List Step} (hC : Slots name before h)
    (hslotting : ∀ step ∈ steps, Slotting name step) (hcourse : Course h steps h') :
    Slots name before h' :=
  hcourse.preserves_of_mem
    (fun step hstep fuel => preserves_exec_slots fuel (hslotting step hstep)) hC

/-- A new host that was given a slot. -/
def NewSlot (name : String) (h : Host Script) : Prop :=
  ∃ runner platform reply, Does (Host.new runner platform) (.newSlot name) reply h

/-- Nothing was asked of a new slot. -/
theorem NewSlot.guarding (hnew : NewSlot name h) : Guarding (SlottingScript name) name [] h := by
  obtain ⟨runner, platform, reply, fuel, hon⟩ := hnew
  cases fuel with
  | zero => cases hon
  | succ fuel =>
    obtain rfl : { Host.new runner platform with state :=
        { (Host.new runner platform : Host Script).state with
          slots := (Host.new runner platform : Host Script).state.slots.insert name {} } } = h :=
      congrArg Prod.snd hon
    refine ⟨.new (Table.find?_insert_self ..) nofun, nofun, fun hne hs hheld => ?_, nofun, nofun⟩
    cases (Table.find?_insert_of_ne _ _ hne).symm.trans hs

/-- **At most one task of a slot is live**, after every course of slotting steps that begins with
the new slot, whatever calls fault.

The course asked something of the slot, call after call, and so does any later course in its turn;
and a step of it goes on with the calls inside a task, too. Guarding a task by the slot is
a reset, which gives the task back under its handle, and emptying the slot is a cancel. Whatever
was asked of a slot, in whatever order and whatever went on beside it, all its tasks have
handles of their own, and only that of the latest call, if this was a reset, is not canceled; a
task that is run now does what it guards if it is that task, and else it leaves everything as it
was; and the slot is pending if its latest call was a reset. -/
theorem at_most_one_task_of_slot_live {steps : List Step} (hnew : NewSlot name h₀)
    (hslotting : ∀ step ∈ steps, Slotting name step) (hcourse : Course h₀ steps h) :
    (∃ calls, Guarding (SlottingScript name) name calls h) ∧
    (∀ (calls : List SlotCall) (g : Host Script), Asked name calls g → OneLive name calls g) ∧
    (∀ calls g, Guarding (SlottingScript name) name calls g →
      (∀ task, ∃ handle g', (guardTask (.slot name) task).on g = (.ok (.guarded handle task), g') ∧
        Guarding (SlottingScript name) name (calls ++ [.reset handle]) g') ∧
      (∃ g', (Host.cancelSlot name).on g = (.ok .done, g') ∧
        Guarding (SlottingScript name) name (calls ++ [.cancel]) g') ∧
      ∀ later g', (∀ step ∈ later, Slotting name step) → Course g later g' →
        ∃ more, Guarding (SlottingScript name) name (calls ++ more) g') ∧
    ∀ calls run fuel step, Slotting name step →
      (∀ script, SlottingScript name script →
        (run script).Preserves (Slots name calls) (Slots name calls)) →
      (perform run fuel step).Preserves (Slots name calls) (Slots name calls) := by
  have hC : Slots name [] h := (Slots.fromNow hnew.guarding).course hslotting hcourse
  refine ⟨hC, fun calls g hasked => hasked.oneLive, fun calls g hG => ⟨hG.reset, hG.cancel, ?_⟩,
    fun calls run fuel step hstep hrun => preserves_perform_slots hrun fuel hstep⟩
  exact fun later g' hlater hcourse' => (Slots.fromNow hG).course hlater hcourse'

/-- A task is run after it was replaced, the next one fills the slot again when it is run, that
one is run after the slot was emptied, and the last one is posted. -/
def replacedFromInside : List Step :=
  [.hold "first" "first" (.slot "slot") [],
    .hold "second" "second" (.slot "slot") [.hold "third" "third" (.slot "slot") []],
    .runHeld "first", .runHeld "second", .cancelSlot "slot", .runHeld "third",
    .post "last" 5 (.slot "slot") none [], .advance 5]

theorem slotting_replacedFromInside : ∀ step ∈ replacedFromInside, Slotting "slot" step := by
  have hthird : SlottingScript "slot" [.hold "third" "third" (.slot "slot") []] :=
    List.forall_mem_singleton.2 (.hold _ _ _ nofun)
  unfold replacedFromInside
  simp only [List.forall_mem_cons]
  exact ⟨.hold _ _ _ nofun, .hold _ _ _ hthird, .runHeld _, .runHeld _, .cancelSlot _, .runHeld _,
    .post _ _ _ _ nofun, .advance _, nofun⟩

/-- Four tasks were guarded. Two of them ran, each the latest one when its turn came. -/
theorem at_most_one_task_of_slot_live_replacedFromInside :
    ∃ h₀ h calls, NewSlot "slot" h₀ ∧ Course h₀ replacedFromInside h ∧ Asked "slot" calls h ∧
      OneLive "slot" calls h ∧ h.ran = [("second", 0), ("last", 5)] ∧
      latest calls = some 3 ∧ h.state.handles.canceled = [2, 1, 0] := by
  obtain ⟨h₀, hrun, hlast⟩ := Run.exists_of_after? 9 [.newSlot "slot"]
    (h := Host.new "main" .desktop)
    (P := fun h₀ =>
      (endOf 9 replacedFromInside h₀).ran = [("second", 0), ("last", 5)] ∧
        (endOf 9 replacedFromInside h₀).state.slots.find? "slot" = some { current := some 3 } ∧
        (endOf 9 replacedFromInside h₀).state.handles.canceled = [2, 1, 0])
    (by decide +kernel)
  have hcourse := course_endOf 9 replacedFromInside h₀
  generalize endOf 9 replacedFromInside h₀ = h at hlast hcourse
  obtain ⟨hran, hslot, hcanceled⟩ := hlast
  have hnew : NewSlot "slot" h₀ := by
    cases hrun with
    | cons hdoes hrest =>
      cases hrest
      exact ⟨_, _, _, hdoes⟩
  obtain ⟨⟨calls, hG⟩, hone, -⟩ :=
    at_most_one_task_of_slot_live hnew slotting_replacedFromInside hcourse
  obtain ⟨s, hs, hshows⟩ := hG.asked.exists_shows
  obtain rfl := Option.some.inj (hslot.symm.trans hs)
  exact ⟨h₀, h, calls, hnew, hcourse, hG.asked, hone calls h hG.asked, hran, hshows.current.symm,
    hcanceled⟩

end Compositor.Step
