import Compositor.Proofs.Host.Requesting
import Compositor.Proofs.Scenario.Lookup
import Compositor.Proofs.Scenario.Run

/-!
# In every run at most one pass waits

An *orderly* step leaves passes to the queue: it does not start one by hand, does not
throw tasks away unrun, and makes no further manager. Scripts that are called back have
to be orderly as well; apart from that a callback may ask for passes, pump the runner
or shut the manager down, and steps may come in any order. After any run of orderly steps
the tasks in the queue that would start a pass are as many as are scheduled.
-/

namespace Compositor.Step

open Compositor.Action Host

/-- **A step that leaves passes to the queue.** -/
inductive Orderly : Step → Prop where
  | offThread {step : Step} (hstep : Orderly step) : Orderly (.offThread step)
  | runUntilIdle : Orderly .runUntilIdle
  | advance (span : Nanos) : Orderly (.advance span)
  | runNext : Orderly .runNext
  | accept (on : Bool) : Orderly (.accept on)
  | runnerInfo : Orderly .runnerInfo
  | post (label : String) (delay : Nanos) {script : Script}
    (hscript : ∀ step ∈ script, Orderly step) : Orderly (.post label delay .none none script)
  | newStub (name : String) (surface : Option SurfaceState) (requested : Nat)
    (shares : List String) (sizeFrom : Option String) {onRequest onGrant : Script}
    (hrequest : ∀ step ∈ onRequest, Orderly step) (hgrant : ∀ step ∈ onGrant, Orderly step) :
    Orderly (.newStub name surface requested shares sizeFrom onRequest onGrant)
  | editStub (name : String) {edit : StubEdit Script}
    (hrequest : ∀ script, edit.onRequest = some script → ∀ step ∈ script, Orderly step)
    (hgrant : ∀ script, edit.onGrant = some script → ∀ step ∈ script, Orderly step) :
    Orderly (.editStub name edit)
  | editOwner (name : String) {edit : OwnerEdit Script}
    (henumerate : ∀ script, edit.onEnumerate = some script → ∀ step ∈ script, Orderly step) :
    Orderly (.editOwner name edit)
  | schedule (name : String) (immediate : Bool) : Orderly (.schedule name immediate)
  | setWindows (name : String) (count : Option Nat) : Orderly (.setWindows name count)
  | shutdownManager (name : String) : Orderly (.shutdownManager name)
  | usage (name : String) : Orderly (.usage name)
  | lastPass (name : String) (keep : Option String) : Orderly (.lastPass name keep)
  | snapshot (name : String) : Orderly (.snapshot name)
  | summary (name : String) : Orderly (.summary name)
  | addGroup (manager group : String) (pid : Nat) : Orderly (.addGroup manager group pid)
  | createGroup (manager group : String) (pid : Nat) : Orderly (.createGroup manager group pid)
  | dropGroup (group : String) : Orderly (.dropGroup group)
  | removeGroup (manager group : String) : Orderly (.removeGroup manager group)
  | report (manager group : String) (old new : Nat) : Orderly (.report manager group old new)
  | groupSize (manager group : String) : Orderly (.groupSize manager group)
  | reportHandle (group : String) (old new : Nat) : Orderly (.reportHandle group old new)
  | handleSize (group : String) : Orderly (.handleSize group)

/-- A script of orderly steps. -/
def OrderlyScript (script : Script) : Prop := ∀ step ∈ script, Orderly step

theorem indifferent_coalescing {Good : Script → Prop} {R : Nat → Prop} :
    Indifferent (Coalescing Good R : Host Script → Prop) where
  onThread _ _ h := h
  inUse _ _ h := h
  groupIds _ _ h := h
  groupHandles _ _ h := h
  snapshots _ _ h := h

/-! ## What an embedder changes -/

section Changes

variable {Good : Script → Prop} {R : Nat → Prop} {h : Host Script}

/-- A new stub with good scripts. -/
theorem coalescing_newStub (hW : Coalescing Good R h) (name : String)
    {stub : StubRecord Script} (hstub : Good stub.onRequest ∧ Good stub.onGrant) :
    Coalescing Good R { h with state := { h.state with
      stubs := (h.state.stubs.enroll name stub).2 } } := by
  obtain ⟨seat, hC, hR⟩ := hW
  refine ⟨seat, { hC with stubs := fun {other} hother => ?_ }, hR⟩
  have hmem : other ∈ h.state.stubs.members ++ [stub] := hother
  rcases List.mem_append.1 hmem with hknown | hnew
  · exact hC.stubs hknown
  · rw [List.mem_singleton.1 hnew]
    exact hstub

theorem coalescing_editStub (hW : Coalescing Good R h) (number : Nat) {edit : StubEdit Script}
    (hrequest : ∀ s, edit.onRequest = some s → Good s)
    (hgrant : ∀ s, edit.onGrant = some s → Good s) :
    Coalescing Good R { h with state := { h.state with
      stubs := h.state.stubs.update number (Host.editStub edit) } } := by
  obtain ⟨seat, hC, hR⟩ := hW
  have hedited (stub : StubRecord Script) (hstub : Good stub.onRequest ∧ Good stub.onGrant) :
      Good (Host.editStub edit stub).onRequest ∧ Good (Host.editStub edit stub).onGrant :=
    ⟨good_getD hrequest hstub.1, good_getD hgrant hstub.2⟩
  have hstubs := Roster.forall_mem_update number (fun _ => hC.stubs) hedited
  exact ⟨seat, { hC with stubs := fun hstub => hstubs _ hstub }, hR⟩

theorem coalescing_editOwner (hW : Coalescing Good R h) (number : Nat)
    {edit : OwnerEdit Script} (henumerate : ∀ s, edit.onEnumerate = some s → Good s) :
    Coalescing Good R { h with state := { h.state with
      managers := h.state.managers.update number fun s =>
        { s with owner := Host.editOwner edit s.owner } } } :=
  Waits.update hW number (fun _ => rfl) (fun _ => ⟨rfl, rfl, rfl⟩)
    fun _ hknown => good_getD henumerate hknown

end Changes

/-! ## Every orderly step -/

/-- **Every orderly step keeps what is waited for in the queue**, if the orderly scripts that
are run meanwhile do. -/
theorem keeps_perform_inStep {run : Script → Act Script Unit}
    (hrun : ∀ script, OrderlyScript script → (run script).Keeps (InStep OrderlyScript))
    (fuel : Nat) {step : Step} (hstep : Orderly step) :
    (perform run fuel step).Keeps (InStep OrderlyScript) := by
  have hP : Indifferent (InStep OrderlyScript) := indifferent_coalescing
  induction hstep with
  | offThread _ ih => rw [perform]; exact hP.offThread ih
  | runUntilIdle => rw [perform]; exact (keeps_runUntilIdle hrun fuel).bind fun _ => .pure _
  | advance span => rw [perform]; exact (keeps_advance hrun fuel span).bind fun _ => .pure _
  | runNext => rw [perform]; exact (keeps_runNext hrun).bind fun _ => .pure _
  | accept on => rw [perform]; exact .bind (.write fun _ h => h) fun _ => .pure _
  | runnerInfo => rw [perform]; exact keeps_residents.bind fun _ => .pure _
  | post label delay hscript =>
    rw [perform]
    exact keeps_post_plain label delay (keeps_post_scripted label hscript delay)
  | newStub name surface requested shares sizeFrom hrequest hgrant =>
    rw [perform]
    exact .bind (keeps_change fun _ hW => coalescing_newStub hW name ⟨hrequest, hgrant⟩)
      fun _ => .pure _
  | editStub name hrequest hgrant =>
    rw [perform]
    exact keeps_lookUp fun number => .bind
      (keeps_change fun _ hW => coalescing_editStub hW number hrequest hgrant) fun _ => .pure _
  | editOwner name henumerate =>
    rw [perform]
    exact keeps_lookUp fun number => .bind
      (keeps_change fun _ hW => coalescing_editOwner hW number henumerate) fun _ => .pure _
  | schedule name immediate =>
    rw [perform]
    exact hP.withManager name fun number =>
      (keeps_schedule_inStep number immediate).bind fun _ => .pure _
  | setWindows name count =>
    rw [perform]
    exact hP.withManager name fun number =>
      (keeps_setWindows_inStep number count).bind fun _ => .pure _
  | shutdownManager name =>
    rw [perform]
    exact hP.withManager name fun number =>
      (keeps_shutdownManager_inStep number).bind fun _ => .pure _
  | usage name =>
    rw [perform]
    exact hP.withSeat name fun _ => (Keeps.ofExcept _).bind fun _ => .pure _
  | lastPass name keep => rw [perform]; exact hP.showLastPass name keep
  | snapshot name =>
    rw [perform]
    exact keeps_residents.bind fun _ => keeps_withNamed _ fun _ => .pure _
  | summary name => rw [perform]; exact hP.withSeat name fun _ => .pure _
  | addGroup manager group pid =>
    rw [perform]
    exact hP.openGroup manager group pid false (fun number => keeps_addGroup_coalescing number pid)
      keeps_releaseHandle_coalescing
  | createGroup manager group pid =>
    rw [perform]
    exact hP.openGroup manager group pid true (fun number => keeps_addGroup_coalescing number pid)
      keeps_releaseHandle_coalescing
  | dropGroup group => rw [perform]; exact hP.dropGroup group keeps_releaseHandle_coalescing
  | removeGroup manager group =>
    rw [perform]
    exact hP.withGroup manager group fun number id =>
      (keeps_removeGroup_coalescing number id).bind fun _ => .pure _
  | report manager group old new =>
    rw [perform]
    exact hP.withGroup manager group fun number id =>
      (keeps_reportGroup_inStep number id old new).bind fun _ => .pure _
  | groupSize manager group =>
    rw [perform]
    exact hP.withGroup manager group fun number _ => (keeps_seat? number).bind fun found =>
      keeps_withNamed found fun _ => .pure _
  | reportHandle group old new =>
    rw [perform]
    exact keeps_lookUp fun handle => (keeps_reportHandle_inStep handle old new).bind
      fun _ => .pure _
  | handleSize group =>
    rw [perform]
    exact keeps_residents.bind fun _ => keeps_withNamed _ fun _ => .pure _

/-- The same for steps within steps, whatever the fuel. -/
theorem keeps_exec_inStep (fuel : Nat) {step : Step} (hstep : Orderly step) :
    (exec fuel step).Keeps (InStep OrderlyScript) := by
  induction fuel generalizing step with
  | zero => exact .halt _
  | succ fuel ih =>
    have hrun (script : Script) (hscript : OrderlyScript script) : (script.forM fun inner => do
        note inner (← exec fuel inner) : Act Script PUnit).Keeps (InStep OrderlyScript) :=
      .forM fun inner hinner => (ih (hscript inner hinner)).bind fun _ _ hW => hW.emit rfl
    exact keeps_perform_inStep hrun fuel hstep

/-! ## From a new manager on -/

/-- A new manager waits for nothing, and nothing was posted. -/
theorem coalesced_ofConfig (detected : Platform) (config : Config) :
    (Manager.ofConfig detected config).Coalesced {} [] where
  issued hposted := nomatch hposted
  canceled hcanceled := nomatch hcanceled
  held hheld := nomatch hheld
  exclusive himmediate := nomatch himmediate
  ended hdown := nomatch hdown
  live _ := .refl _

/-- A host on which a manager was made is in step. -/
theorem Does.inStep_newManager {runner : String} {platform : Platform} {name : String}
    {source : ConfigSource} {config : Config} {stubs : List String} {driverTotal : Option Nat}
    {onEnumerate : Script} {reply : Reply} {h : Host Script}
    (hsource : source.load = .ok config) (henumerate : OrderlyScript onEnumerate)
    (hdoes : Does (Host.new runner platform)
      (.newManager name source stubs driverTotal onEnumerate) reply h) :
    InStep OrderlyScript h := by
  obtain ⟨fuel, hon⟩ := hdoes
  cases fuel with
  | zero => cases hon
  | succ fuel =>
    refine Ends.of_on (E := fun _ _ => True) (Q := fun _ => InStep OrderlyScript) ?_ hon
    unfold exec
    rw [perform]
    unfold Host.newManager
    rw [hsource]
    exact ⟨⟨Manager.ofConfig platform config, { name, stubs, driverTotal, onEnumerate }, 0⟩,
      ⟨rfl, rfl, rfl, coalesced_ofConfig platform config, nofun, henumerate, nofun⟩, trivial⟩

/-! ## Pumping without further requests -/

/-- A step that only lets the runner run. -/
inductive IsPump : Step → Prop where
  | runUntilIdle : IsPump .runUntilIdle
  | advance (span : Nanos) : IsPump (.advance span)
  | runNext : IsPump .runNext

/-- Nothing that is called back does anything. -/
structure Quiet (h : Host Script) : Prop where
  onEnumerate {seat : ManagerSeat Script} (hseat : seat ∈ h.state.managers.members) :
    seat.owner.onEnumerate = []
  stubs {stub : StubRecord Script} (hstub : stub ∈ h.state.stubs.members) :
    stub.onRequest = [] ∧ stub.onGrant = []
  scripted {label : String} {script : Script} (htask : .scripted label script ∈ h.queued) :
    script = []

/-- On a quiet host a pass only starts if it was scheduled. -/
theorem keeps_exec_quiet {R : Nat → Prop} (fuel : Nat) {step : Step} (hstep : IsPump step) :
    (exec fuel step).Keeps (Coalescing (· = []) R) := by
  cases fuel with
  | zero => exact .halt _
  | succ fuel =>
    have hrun (script : Script) (hquiet : script = []) : (script.forM fun inner => do
        note inner (← exec fuel inner) : Act Script PUnit).Keeps (Coalescing (· = []) R) := by
      rw [hquiet]
      exact .pure _
    unfold exec
    cases hstep with
    | runUntilIdle => rw [perform]; exact (keeps_runUntilIdle hrun fuel).bind fun _ => .pure _
    | advance span => rw [perform]; exact (keeps_advance hrun fuel span).bind fun _ => .pure _
    | runNext => rw [perform]; exact (keeps_runNext hrun).bind fun _ => .pure _

/-- The same holds over many such steps: the passes that have started or are scheduled stay
as many as they are. -/
theorem Run.begunOrScheduled_eq {h h' : Host Script} {pumps : List Step}
    (hW : InStep OrderlyScript h) (hquiet : Quiet h) (hrun : Run h pumps h')
    (hpumps : ∀ step ∈ pumps, IsPump step) {seat seat' : ManagerSeat Script}
    (hseat : h.state.managers.get? 0 = some seat)
    (hseat' : h'.state.managers.get? 0 = some seat') :
    h'.begunOrScheduled seat' = h.begunOrScheduled seat := by
  -- on a quiet host the empty scripts are the only good ones
  have hstart : Coalescing (· = []) (· = h.begunOrScheduled seat) h := by
    obtain ⟨only, hC, -⟩ := hW
    obtain ⟨-, rfl⟩ := hC.eq_of_get? hseat
    refine ⟨seat, { hC with
      plain := fun htask => ?_
      onEnumerate := hquiet.onEnumerate (List.mem_of_getElem? hseat)
      stubs := hquiet.stubs }, rfl⟩
    cases hC.plain htask with
    | scripted _ => exact .scripted (hquiet.scripted htask)
    | pass p => exact .pass p
  obtain ⟨only, hC, hR⟩ := hrun.keeps hstart fun step hstep fuel =>
    keeps_exec_quiet fuel (hpumps step hstep)
  obtain ⟨-, rfl⟩ := hC.eq_of_get? hseat'
  exact hR

/-! ## The result -/

/-- **At most one pass waits, and it waits exactly if one is scheduled.** Take a run that
makes a manager from a valid configuration on a new host, and then takes orderly steps in
any order, none of which faults. At its end the manager is there, and of the tasks in
the queue one would start a pass if one is scheduled, and none if not. So the requests
that were made since the last pass lead to exactly one pass or to none: if from there on
the runner is pumped and nobody asks for more, the passes that start are the one that
was scheduled, or none. -/
theorem Run.one_pass_waits {runner : String} {platform : Platform} {name : String}
    {source : ConfigSource} {config : Config} {stubs : List String} {driverTotal : Option Nat}
    {onEnumerate : Script} {steps : List Step} {h : Host Script}
    (hsource : source.load = .ok config) (henumerate : OrderlyScript onEnumerate)
    (hsteps : OrderlyScript steps)
    (hrun : Run (Host.new runner platform)
      (.newManager name source stubs driverTotal onEnumerate :: steps) h) :
    ∃ seat, h.state.managers.get? 0 = some seat ∧
      h.queue.pending.countP (fun p => h.startsPass p.task)
        = (if seat.manager.isScheduled h.state.handles then 1 else 0) ∧
      ∀ pumps h', (∀ step ∈ pumps, IsPump step) → Quiet h → Run h pumps h' →
        ∃ seat', h'.state.managers.get? 0 = some seat' ∧
          h'.begun + (if seat'.manager.isScheduled h'.state.handles then 1 else 0)
            = h.begun + if seat.manager.isScheduled h.state.handles then 1 else 0 := by
  cases hrun with
  | cons hfirst hrest =>
    have hW : InStep OrderlyScript h := hrest.keeps (hfirst.inStep_newManager hsource henumerate)
      fun step hstep fuel => keeps_exec_inStep fuel (hsteps step hstep)
    obtain ⟨seat, hC, -⟩ := hW
    have hseat := hC.get?_zero
    refine ⟨seat, hseat, hC.countP_startsPass, fun pumps h' hpumps hquiet hpumped => ?_⟩
    have hW : InStep OrderlyScript h := ⟨seat, hC, trivial⟩
    have horderly (step : Step) (hstep : IsPump step) : Orderly step := by
      cases hstep with
      | runUntilIdle => exact .runUntilIdle
      | advance span => exact .advance span
      | runNext => exact .runNext
    obtain ⟨seat', hC', -⟩ : InStep OrderlyScript h' := hpumped.keeps hW
      fun step hstep fuel => keeps_exec_inStep fuel (horderly step (hpumps step hstep))
    exact ⟨seat', hC'.get?_zero,
      hpumped.begunOrScheduled_eq hW hquiet hpumps hseat hC'.get?_zero⟩

/-- A stub that asks for a pass whenever it is asked in one; a delayed and an immediate request
before the first pass; a request that the runner refuses; and a last one that it accepts. -/
def requests : List Step :=
  [.newStub "tab" (some ⟨1, true, 0⟩) 300 [] none [.schedule "gpu" false] [],
    .schedule "gpu" false,
    .schedule "gpu" true,
    .runUntilIdle,
    .accept false,
    .schedule "gpu" true,
    .accept true,
    .setWindows "gpu" (some 2)]

theorem orderly_requests : OrderlyScript requests := by
  unfold OrderlyScript requests
  simp only [List.forall_mem_cons]
  exact ⟨.newStub _ _ _ _ _ (List.forall_mem_singleton.2 (.schedule _ _)) (List.forall_mem_nil _),
    .schedule _ _, .schedule _ _, .runUntilIdle, .accept _, .schedule _ _, .accept _,
    .setWindows _ _, List.forall_mem_nil _⟩

/-- Three tasks are in the queue then, and one of them would start a pass. -/
theorem Run.one_pass_waits_requests :
    ∃ h seat, Run (Host.new "main" .desktop)
        (.newManager "gpu" (.fields {}) ["tab"] none [] :: requests) h ∧
      h.state.managers.get? 0 = some seat ∧
      seat.manager.isScheduled h.state.handles = true ∧ h.queue.pending.length = 3 ∧
      h.queue.pending.countP (fun p => h.startsPass p.task) = 1 := by
  have hend : ((after? 9 (.newManager "gpu" (.fields {}) ["tab"] none [] :: requests)
      (Host.new "main" .desktop)).bind fun h => (h.state.managers.get? 0).map fun s =>
        (s.manager.isScheduled h.state.handles, h.queue.pending.length)) = some (true, 3) := by
    decide +kernel
  obtain ⟨h, hafter, hmap⟩ := Option.bind_eq_some_iff.1 hend
  obtain ⟨seat, hseat, hpair⟩ := Option.map_eq_some_iff.1 hmap
  obtain ⟨hscheduled, hlength⟩ := Prod.mk.inj hpair
  have hrun := Run.of_after? hafter
  obtain ⟨seat', hseat', hlive, -⟩ :=
    hrun.one_pass_waits rfl (List.forall_mem_nil _) orderly_requests
  obtain rfl := Option.some.inj (hseat.symm.trans hseat')
  rw [hscheduled] at hlive
  exact ⟨h, seat, hrun, hseat, hscheduled, hlength, hlive⟩

end Compositor.Step
