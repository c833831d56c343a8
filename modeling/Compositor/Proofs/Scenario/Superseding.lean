import Compositor.Proofs.Host.Superseding
import Compositor.Proofs.Scenario.Lookup
import Compositor.Proofs.Scenario.Run

/-!
# A pass by hand supersedes a delayed pass

When a pass is started by hand, the manager answers at once that no pass is scheduled any more,
and it is expected that none runs until one is asked for. That is so for a delayed pass: it is
canceled, and nothing comes of its task. An immediate pass that is in the queue runs all the
same. So from a pass by hand on, as long as nobody asks for more, the passes that begin are no
more than the immediate ones that are in the queue.

*Attending* steps are about one manager: they ask it for passes or start one by hand, shut it
down, change its owner and its stubs, track groups, and pump the runner, which may refuse posts
and throw tasks away. What is called back consists of such steps. Those that do not *ask* leave
out the requests, and what may lead to one.
-/

namespace Compositor.Step

open Compositor.Action Host

/-- **A step about the only manager of a host**, and so is whatever it has called back. -/
inductive Attending (asks : Bool) : Step → Prop where
  | offThread {step : Step} (hstep : Attending asks step) : Attending asks (.offThread step)
  | runUntilIdle : Attending asks .runUntilIdle
  | advance (span : Nanos) : Attending asks (.advance span)
  | runNext : Attending asks .runNext
  | clearPending : Attending asks .clearPending
  | accept (on : Bool) : Attending asks (.accept on)
  | runnerInfo : Attending asks .runnerInfo
  | post (label : String) (delay : Nanos) {script : Script}
    (hscript : ∀ step ∈ script, Attending asks step) :
    Attending asks (.post label delay .none none script)
  | newStub (name : String) (surface : Option SurfaceState) (requested : Nat)
    (shares : List String) (sizeFrom : Option String) {onRequest onGrant : Script}
    (hrequest : ∀ step ∈ onRequest, Attending asks step)
    (hgrant : ∀ step ∈ onGrant, Attending asks step) :
    Attending asks (.newStub name surface requested shares sizeFrom onRequest onGrant)
  | editStub (name : String) {edit : StubEdit Script}
    (hrequest : ∀ script, edit.onRequest = some script → ∀ step ∈ script, Attending asks step)
    (hgrant : ∀ script, edit.onGrant = some script → ∀ step ∈ script, Attending asks step) :
    Attending asks (.editStub name edit)
  | editOwner (name : String) {edit : OwnerEdit Script}
    (henumerate : ∀ script, edit.onEnumerate = some script →
      ∀ step ∈ script, Attending asks step) : Attending asks (.editOwner name edit)
  | shutdownManager (name : String) : Attending asks (.shutdownManager name)
  | usage (name : String) : Attending asks (.usage name)
  | lastPass (name : String) (keep : Option String) : Attending asks (.lastPass name keep)
  | snapshot (name : String) : Attending asks (.snapshot name)
  | summary (name : String) : Attending asks (.summary name)
  | addGroup (manager group : String) (pid : Nat) : Attending asks (.addGroup manager group pid)
  | createGroup (manager group : String) (pid : Nat) :
    Attending asks (.createGroup manager group pid)
  | dropGroup (group : String) : Attending asks (.dropGroup group)
  | removeGroup (manager group : String) : Attending asks (.removeGroup manager group)
  | groupSize (manager group : String) : Attending asks (.groupSize manager group)
  | handleSize (group : String) : Attending asks (.handleSize group)
  -- what asks for a pass, or starts one
  | schedule (name : String) (immediate : Bool) (hasks : asks = true) :
    Attending asks (.schedule name immediate)
  | setWindows (name : String) (count : Option Nat) (hasks : asks = true) :
    Attending asks (.setWindows name count)
  | report (manager group : String) (old new : Nat) (hasks : asks = true) :
    Attending asks (.report manager group old new)
  | reportHandle (group : String) (old new : Nat) (hasks : asks = true) :
    Attending asks (.reportHandle group old new)
  | manage (name : String) (hasks : asks = true) : Attending asks (.manage name)

/-- A script of attending steps. -/
def AttendingScript (asks : Bool) (script : Script) : Prop := ∀ step ∈ script, Attending asks step

section Steps

variable {Good : Script → Prop} {limit : Option Nat} {h : Host Script}

theorem indifferent_attended :
    Indifferent (Attended Good limit : Host Script → Prop) (Attended Good limit) where
  onThread _ _ h := h
  inUse _ _ h := h
  groupIds _ _ h := h
  groupHandles _ _ h := h
  snapshots _ _ h := h
  haltedOnThread _ _ h := h
  haltedInUse _ _ h := h

/-! ## What an embedder changes -/

/-- A new stub with good scripts. -/
theorem attended_newStub (hP : Attended Good limit h) (name : String)
    {stub : StubRecord Script} (hstub : Good stub.onRequest ∧ Good stub.onGrant) :
    Attended Good limit { h with state := { h.state with
      stubs := (h.state.stubs.enroll name stub).2 } } := by
  obtain ⟨seat, hT, hlimit⟩ := hP
  refine ⟨seat, { hT with stubs := fun hother => ?_ }, hlimit⟩
  rcases (Roster.gains_enroll ..).mem_iff.1 hother with hknown | rfl
  · exact hT.stubs hknown
  · exact hstub

theorem attended_editStub (hP : Attended Good limit h) (number : Nat) {edit : StubEdit Script}
    (hrequest : ∀ s, edit.onRequest = some s → Good s)
    (hgrant : ∀ s, edit.onGrant = some s → Good s) :
    Attended Good limit { h with state := { h.state with
      stubs := h.state.stubs.update number (Host.editStub edit) } } := by
  obtain ⟨seat, hT, hlimit⟩ := hP
  have hstubs := Roster.forall_mem_update number (f := Host.editStub edit) (fun _ => hT.stubs)
    fun _ hstub => ⟨good_getD hrequest hstub.1, good_getD hgrant hstub.2⟩
  exact ⟨seat, { hT with stubs := fun hstub => hstubs _ hstub }, hlimit⟩

/-! ## Every attending step -/

/-- **Every attending step keeps the manager tended**, if the attending scripts that are run
meanwhile do. If there is a limit to the passes that begin, no step may ask for one. -/
theorem preserves_perform_attended {asks : Bool} (hlimit : asks = true → limit = none)
    {run : Script → Act Script Unit}
    (hrun : ∀ script, AttendingScript asks script → (run script).Preserves
      (Attended (AttendingScript asks) limit) (Attended (AttendingScript asks) limit))
    (fuel : Nat) {step : Step} (hstep : Attending asks step) :
    (perform run fuel step).Preserves (Attended (AttendingScript asks) limit)
      (Attended (AttendingScript asks) limit) := by
  have hP : Indifferent (Attended (AttendingScript asks) limit)
      (Attended (AttendingScript asks) limit) := indifferent_attended
  have hpopped := ends_popped_attended hrun
  induction hstep with
  | offThread _ ih => rw [perform]; exact hP.offThread ih
  | runUntilIdle =>
    rw [perform]
    exact (EventLoop.preserves_runUntilIdle (fun _ hP => hP) hpopped fuel).bind fun _ => .pure _
  | advance span =>
    rw [perform]
    exact (EventLoop.preserves_advance (fun _ hP => hP) hpopped (fun _ _ hP _ _ => hP) fuel
      span).bind fun _ => .pure _
  | runNext => rw [perform]; exact (EventLoop.preserves_runNext hpopped).bind fun _ => .pure _
  | clearPending =>
    rw [perform]
    exact .bind (.write fun _ hP => hP.subperm (List.nil_subperm ..)) fun _ => .pure _
  | accept on =>
    rw [perform]
    exact .bind (.write fun _ hP => hP) fun _ => .pure _
  | runnerInfo => rw [perform]; exact preserves_residents.bind fun _ => .pure _
  | post label delay hscript =>
    rw [perform]
    exact preserves_post_plain label delay (preserves_post_attended label hscript delay)
  | newStub name surface requested shares sizeFrom hrequest hgrant =>
    rw [perform]
    exact .bind (preserves_change fun _ hP => attended_newStub hP name ⟨hrequest, hgrant⟩)
      fun _ => .pure _
  | editStub name hrequest hgrant =>
    rw [perform]
    exact preserves_lookUp fun number => .bind
      (preserves_change fun _ hP => attended_editStub hP number hrequest hgrant) fun _ => .pure _
  | editOwner name henumerate =>
    rw [perform]
    exact preserves_lookUp fun number => .bind (preserves_change fun _ hP =>
      hP.update number (fun _ => rfl) (fun _ => ⟨rfl, rfl, rfl⟩) fun _ => good_getD henumerate)
      fun _ => .pure _
  | shutdownManager name =>
    rw [perform]
    exact hP.withManager name fun number =>
      (preserves_shutdownManager_attended number).bind fun _ => .pure _
  | usage name =>
    rw [perform]
    exact hP.withSeat name fun _ => (Preserves.ofExcept (fun _ hP => hP) _).bind fun _ => .pure _
  | lastPass name keep => rw [perform]; exact hP.showLastPass name keep
  | snapshot name =>
    rw [perform]
    exact preserves_residents.bind fun _ => preserves_withNamed _ fun _ => .pure _
  | summary name => rw [perform]; exact hP.withSeat name fun _ => .pure _
  | addGroup manager group pid =>
    rw [perform]
    exact hP.openGroup manager group pid false
      (fun number => preserves_addGroup_attended number pid) preserves_releaseHandle_attended
  | createGroup manager group pid =>
    rw [perform]
    exact hP.openGroup manager group pid true
      (fun number => preserves_addGroup_attended number pid) preserves_releaseHandle_attended
  | dropGroup group => rw [perform]; exact hP.dropGroup group preserves_releaseHandle_attended
  | removeGroup manager group =>
    rw [perform]
    exact hP.withGroup manager group fun number id =>
      (preserves_removeGroup_attended number id).bind fun _ => .pure _
  | groupSize manager group =>
    rw [perform]
    exact hP.withGroup manager group fun number _ => (preserves_seat? number).bind fun found =>
      preserves_withNamed found fun _ => .pure _
  | handleSize group =>
    rw [perform]
    exact preserves_residents.bind fun _ => preserves_withNamed _ fun _ => .pure _
  | schedule name immediate hasks =>
    obtain rfl := hlimit hasks
    rw [perform]
    exact hP.withManager name fun number =>
      (preserves_schedule_attended number immediate).bind fun _ => .pure _
  | setWindows name count hasks =>
    obtain rfl := hlimit hasks
    rw [perform]
    exact hP.withManager name fun number =>
      (preserves_setWindows_attended number count).bind fun _ => .pure _
  | report manager group old new hasks =>
    obtain rfl := hlimit hasks
    rw [perform]
    exact hP.withGroup manager group fun number id =>
      (preserves_reportGroup_attended number id old new).bind fun _ => .pure _
  | reportHandle group old new hasks =>
    obtain rfl := hlimit hasks
    rw [perform]
    exact preserves_lookUp fun handle => (preserves_reportHandle_attended handle old new).bind
      fun _ => .pure _
  | manage name hasks =>
    obtain rfl := hlimit hasks
    rw [perform]
    exact hP.withManager name fun number =>
      (preserves_manage_attended hrun number).bind fun _ => .pure _

/-- The same for steps within steps, whatever the fuel. -/
theorem preserves_exec_attended {asks : Bool} (hlimit : asks = true → limit = none) (fuel : Nat)
    {step : Step} (hstep : Attending asks step) :
    (exec fuel step).Preserves (Attended (AttendingScript asks) limit)
      (Attended (AttendingScript asks) limit) := by
  induction fuel generalizing step with
  | zero => exact .halt (fun _ hP => hP) _
  | succ fuel ih =>
    refine preserves_perform_attended hlimit (fun script hscript => ?_) fuel hstep
    exact .forM fun inner hinner => (ih (hscript inner hinner)).bind fun _ _ hP => hP.emit rfl

end Steps

/-! ## From a new manager on -/

/-- The first manager of a host is tended. -/
theorem Does.attended_newManager {runner : String} {platform : Platform} {name : String}
    {source : ConfigSource} {config : Config} {stubs : List String} {driverTotal : Option Nat}
    {onEnumerate : Script} {reply : Reply} {h : Host Script}
    (hsource : source.load = .ok config) (henumerate : AttendingScript true onEnumerate)
    (hdoes : Does (Host.new runner platform)
      (.newManager name source stubs driverTotal onEnumerate) reply h) :
    Attended (AttendingScript true) none h := by
  obtain ⟨fuel, hon⟩ := hdoes
  cases fuel with
  | zero => cases hon
  | succ fuel =>
    refine Ends.of_on (E := fun _ _ => True)
      (Q := fun _ => Attended (AttendingScript true) none) ?_ hon
    unfold exec
    rw [perform]
    unfold Host.newManager
    rw [hsource]
    exact ⟨⟨Manager.ofConfig platform config, { name, stubs, driverTotal, onEnumerate }, 0⟩,
      ⟨rfl, rfl, fun _ => rfl, ⟨nofun, nofun⟩, nofun, henumerate, nofun⟩, nofun⟩

/-- Nothing that is called back asks for a pass. -/
structure Undemanding (h : Host Script) : Prop where
  onEnumerate {seat : ManagerSeat Script} (hseat : seat ∈ h.state.managers.members) :
    AttendingScript false seat.owner.onEnumerate
  stubs {stub : StubRecord Script} (hstub : stub ∈ h.state.stubs.members) :
    AttendingScript false stub.onRequest ∧ AttendingScript false stub.onGrant
  scripted {label : String} {script : Script} (htask : .scripted label script ∈ h.queued) :
    AttendingScript false script

/-- On a host without stubs nothing asks for a pass if the owners' callbacks do nothing and all that
waits are passes. -/
theorem undemanding_of_bare {h : Host Script}
    (howners : ∀ seat ∈ h.state.managers.members, seat.owner.onEnumerate.length = 0)
    (hstubs : h.state.stubs.members.length = 0)
    (hpasses : ∀ task ∈ h.queued, task.postedPass?.isSome = true) : Undemanding h where
  onEnumerate hseat := by
    rw [List.length_eq_zero_iff.1 (howners _ hseat)]
    exact List.forall_mem_nil _
  stubs hstub := by
    rw [List.length_eq_zero_iff.1 hstubs] at hstub
    cases hstub
  scripted htask := nomatch hpasses _ htask

/-- What is called back on a host is good if it does not ask for passes. -/
theorem Undemanding.tended {Good : Script → Prop} {h : Host Script} {seat : ManagerSeat Script}
    (hcalm : Undemanding h)
    (hT : Tended Good h.state.proxies h.state.handles h.state.stubs h.state.managers h.queued
      seat) :
    Tended (AttendingScript false) h.state.proxies h.state.handles h.state.stubs h.state.managers
      h.queued seat :=
  { hT with
    plain := fun htask => by
      cases hT.plain htask with
      | scripted _ => exact .scripted (hcalm.scripted htask)
      | pass p => exact .pass p
    onEnumerate := hcalm.onEnumerate (List.mem_of_getElem? hT.get?_zero)
    stubs := hcalm.stubs }

/-- **A pass by hand** sets a limit to the passes that begin, if nobody asks for more meanwhile:
itself, and the immediate passes that are in the queue. -/
theorem Does.attended_manage {Good : Script → Prop} {h h' : Host Script} {name : String}
    {reply : Reply} (hP : Attended Good none h) (hcalm : Undemanding h)
    (hnamed : h.state.managers.number? name = some 0) (hdoes : Does h (.manage name) reply h') :
    Attended (AttendingScript false) (some (h.begun + 1 + immediatePasses h.queued)) h' := by
  obtain ⟨seat, hT, -⟩ := hP
  obtain ⟨fuel, hon⟩ := hdoes
  have hforbids : false = true → some (h.begun + 1 + immediatePasses h.queued) = none := nofun
  cases fuel with
  | zero => cases hon
  | succ fuel =>
    have hrun (script : Script) (hscript : AttendingScript false script) :
        (script.forM fun inner => do note inner (← exec fuel inner) : Act Script PUnit).Preserves
          (Attended (AttendingScript false) (some (h.begun + 1 + immediatePasses h.queued)))
          fun _ => True :=
      .forM fun inner hinner => .bind (fun h hP => (preserves_exec_attended hforbids fuel
        (hscript inner hinner) h hP).imp (fun _ _ hP => hP) fun _ _ _ => trivial)
        fun _ _ hP => hP.emit rfl
    have hlimit : h.begun + (if seat.manager.shutDown then 0 else 1) + immediatePasses h.queued
        ≤ h.begun + 1 + immediatePasses h.queued := by split <;> omega
    have hends : (exec (fuel + 1) (.manage name)).Ends h
        (fun _ => Attended (AttendingScript false)
          (some (h.begun + 1 + immediatePasses h.queued))) fun _ _ => True := by
      rw [exec, perform]
      unfold Host.withManager withNamed holding
      simp only [ends_bind, ends_residents, hnamed]
      rw [ends_around, ends_bind]
      exact Ends.imp (ends_manage_attended (fun _ _ => trivial) hrun (hcalm.tended hT)
        (fun _ htotal => Option.some.inj htotal ▸ hlimit) trivial) (fun _ _ hP => hP)
        fun _ _ _ => trivial
    exact hends.of_on hon

/-! ## The result -/

/-- **A pass by hand supersedes a delayed pass, and no immediate one.** Make a manager from a valid
configuration on a new host, take attending steps in any order, whatever comes of each, and start
a pass by hand while nothing that is called back asks for more. Then the passes that begin by its
end are, together with the immediate passes that are in the queue by then, no more than itself and
those that were in the queue before.

From there on, as long as nobody asks for a pass, none is scheduled. The tasks in the queue that
would start one are the immediate passes, unless the manager is shut down, and no delayed one; and
the passes that begin are no more than the immediate ones that were in the queue. So if there was
none, none begins, however long the runner is pumped. -/
theorem direct_pass_supersedes_delayed {runner : String} {platform : Platform} {name : String}
    {source : ConfigSource} {config : Config} {stubs : List String} {driverTotal : Option Nat}
    {onEnumerate : Script} {made reply : Reply} {steps : List Step} {called : String}
    {h₀ h h₁ : Host Script} (hsource : source.load = .ok config)
    (henumerate : AttendingScript true onEnumerate)
    (hmade : Does (Host.new runner platform)
      (.newManager name source stubs driverTotal onEnumerate) made h₀)
    (hsteps : AttendingScript true steps) (hcourse : Course h₀ steps h) (hcalm : Undemanding h)
    (hcalled : h.state.managers.number? called = some 0)
    (hdoes : Does h (.manage called) reply h₁) :
    h₁.begun + immediatePasses h₁.queued ≤ h.begun + 1 + immediatePasses h.queued ∧
    ∀ steps' h₂, AttendingScript false steps' → Course h₁ steps' h₂ →
      h₂.begun + immediatePasses h₂.queued ≤ h₁.begun + immediatePasses h₁.queued ∧
      ∃ seat, h₂.state.managers.get? 0 = some seat ∧
        seat.manager.isScheduled h₂.state.handles = false ∧
        ∀ p ∈ h₂.queue.pending, h₂.startsPass p.task = true ↔
          seat.manager.shutDown = false ∧ p.task.postedPass? = some .now := by
  have hattended : Attended (AttendingScript true) none h :=
    hcourse.preserves_of_mem (fun step hstep fuel =>
      preserves_exec_attended (fun _ => rfl) fuel (hsteps step hstep))
      (hmade.attended_newManager hsource henumerate)
  obtain ⟨seat₁, hT₁, hlimit₁⟩ := hdoes.attended_manage hattended hcalm hcalled
  have hlapsed₁ := hlimit₁ _ rfl
  refine ⟨hlapsed₁.le, fun steps' h₂ hsteps' hafter => ?_⟩
  -- what there is after the pass is the limit from there on
  have hfrom : Attended (AttendingScript false)
      (some (h₁.begun + immediatePasses h₁.queued)) h₁ :=
    ⟨seat₁, hT₁, fun _ htotal => { hlapsed₁ with le := Nat.le_of_eq (Option.some.inj htotal) }⟩
  have hforbids : false = true → some (h₁.begun + immediatePasses h₁.queued) = none := nofun
  obtain ⟨seat, hT, hlimit⟩ := hafter.preserves_of_mem (fun step hstep fuel =>
    preserves_exec_attended hforbids fuel (hsteps' step hstep)) hfrom
  have hlapsed := hlimit _ rfl
  exact ⟨hlapsed.le, seat, hT.get?_zero, hlapsed.isScheduled _, fun p hp =>
    hT.startsPass_iff_now hlapsed.delayed (List.mem_map_of_mem hp)⟩

/-- A delayed pass waits, and one is started by hand: its time comes and goes, and no pass
begins. -/
theorem direct_pass_supersedes_delayed_overtaken :
    ∃ made reply h₀ h h₁ h₂,
      Does (Host.new "main" .desktop) (.newManager "gpu" (.fields {}) [] none []) made h₀ ∧
      Course h₀ [.schedule "gpu" false] h ∧ Does h (.manage "gpu") reply h₁ ∧
      h₁.begun = 1 ∧ h₁.queue.pending.length = 1 ∧
      Course h₁ [.advance 1000000000] h₂ ∧ h₂.queue.pending.length = 0 ∧ h₂.begun ≤ 1 := by
  obtain ⟨h₀, hfirst, hlast⟩ := Run.exists_of_after? 9
    [.newManager "gpu" (.fields {}) [] none []] (h := Host.new "main" .desktop)
    (P := fun h₀ => (after? 9 [.schedule "gpu" false] h₀).map (fun h => decide
      (((∀ seat ∈ h.state.managers.members, seat.owner.onEnumerate.length = 0) ∧
          h.state.stubs.members.length = 0 ∧
          (∀ task ∈ h.queued, task.postedPass?.isSome = true) ∧
          h.state.managers.number? "gpu" = some 0) ∧
        (after? 9 [.manage "gpu"] h).map (fun h₁ => decide
          (h₁.begun = 1 ∧ h₁.queue.pending.length = 1 ∧ immediatePasses h₁.queued = 0 ∧
            (after? 9 [.advance 1000000000] h₁).map (fun h₂ => decide
              (h₂.queue.pending.length = 0)) = some true)) = some true)) = some true)
    (by decide +kernel)
  obtain ⟨h, hasked, ⟨howners, hstubs, hpasses, hcalled⟩, hlast⟩ := Run.exists_of_after? _ _ hlast
  obtain ⟨h₁, hmanaged, hone, hwaits, hnone, hlast⟩ := Run.exists_of_after? _ _ hlast
  obtain ⟨h₂, hpumped, hempty⟩ := Run.exists_of_after? _ _ hlast
  cases hfirst with
  | cons hmade hnil =>
    cases hnil
    cases hmanaged with
    | cons hdoes hnil =>
      cases hnil
      obtain ⟨-, hsuperseded⟩ := direct_pass_supersedes_delayed rfl (List.forall_mem_nil _) hmade
        (List.forall_mem_singleton.2 (.schedule _ _ rfl)) hasked.course
        (undemanding_of_bare howners hstubs hpasses) hcalled hdoes
      obtain ⟨hle, -⟩ := hsuperseded _ h₂ (List.forall_mem_singleton.2 (.advance _)) hpumped.course
      rw [hone, hnone] at hle
      exact ⟨_, _, h₀, h, h₁, h₂, hmade, hasked.course, hdoes, hone, hwaits, hpumped.course, hempty,
        Nat.le_trans (Nat.le_add_right ..) hle⟩

/-- **An immediate pass is not superseded.** It is in the queue when a pass is started by hand. The
manager answers that none is scheduled any more, and pumping the runner starts a second one. -/
theorem immediate_pass_not_superseded :
    ∃ h h₁ reply, Run (Host.new "main" .desktop)
        [.newManager "gpu" (.fields {}) [] none [], .schedule "gpu" true, .manage "gpu"] h ∧
      (h.state.managers.get? 0).map (fun seat => (seat.manager.shutDown,
        seat.manager.isScheduled h.state.handles)) = some (false, false) ∧ h.begun = 1 ∧
      Does h .runUntilIdle reply h₁ ∧ h₁.begun = 2 := by
  obtain ⟨h, hrun, hunscheduled, hone, hlast⟩ := Run.exists_of_after? 9
    [.newManager "gpu" (.fields {}) [] none [], .schedule "gpu" true, .manage "gpu"]
    (h := Host.new "main" .desktop)
    (P := fun h => (h.state.managers.get? 0).map (fun seat => (seat.manager.shutDown,
        seat.manager.isScheduled h.state.handles)) = some (false, false) ∧ h.begun = 1 ∧
      (after? 9 [.runUntilIdle] h).map (fun h₁ => decide (h₁.begun = 2)) = some true)
    (by decide +kernel)
  obtain ⟨h₁, hpumped, htwo⟩ := Run.exists_of_after? _ _ hlast
  cases hpumped with
  | cons hdoes hrest =>
    cases hrest
    exact ⟨h, h₁, _, hrun, hunscheduled, hone, hdoes, htwo⟩

end Compositor.Step
