import Compositor.Proofs.Host.Paying
import Compositor.Proofs.Scenario.Lookup
import Compositor.Proofs.Scenario.Run

/-!
# In every run no request is lost

A *timeless* step does not move the clock: it asks for passes, reports what groups hold,
starts a pass by hand, posts, or runs what is due already. What is called back has to be
timeless, since a callback that moves the clock is at odds with the pump that called it. On the
top, steps may move the clock ahead as well, by any span or to the next task.

Whatever timeless and forward steps come before a request, and whatever comes after it, a pass
starts that the request can be content with: by the next pump if it was immediate, and by the
time its delay is over if not; unless the manager is shut down.
-/

namespace Compositor.Step

open Compositor.Action Host

/-- **A step that does not move the clock**, and neither does what it has called back. -/
inductive Timeless : Step → Prop where
  | offThread {step : Step} (hstep : Timeless step) : Timeless (.offThread step)
  | runUntilIdle : Timeless .runUntilIdle
  | runnerInfo : Timeless .runnerInfo
  | post (label : String) (delay : Nanos) {script : Script}
    (hscript : ∀ step ∈ script, Timeless step) : Timeless (.post label delay .none none script)
  | newStub (name : String) (surface : Option SurfaceState) (requested : Nat)
    (shares : List String) (sizeFrom : Option String) {onRequest onGrant : Script}
    (hrequest : ∀ step ∈ onRequest, Timeless step) (hgrant : ∀ step ∈ onGrant, Timeless step) :
    Timeless (.newStub name surface requested shares sizeFrom onRequest onGrant)
  | editStub (name : String) {edit : StubEdit Script}
    (hrequest : ∀ script, edit.onRequest = some script → ∀ step ∈ script, Timeless step)
    (hgrant : ∀ script, edit.onGrant = some script → ∀ step ∈ script, Timeless step) :
    Timeless (.editStub name edit)
  | editOwner (name : String) {edit : OwnerEdit Script}
    (henumerate : ∀ script, edit.onEnumerate = some script → ∀ step ∈ script, Timeless step) :
    Timeless (.editOwner name edit)
  | manage (name : String) : Timeless (.manage name)
  | schedule (name : String) (immediate : Bool) : Timeless (.schedule name immediate)
  | setWindows (name : String) (count : Option Nat) : Timeless (.setWindows name count)
  | shutdownManager (name : String) : Timeless (.shutdownManager name)
  | usage (name : String) : Timeless (.usage name)
  | lastPass (name : String) (keep : Option String) : Timeless (.lastPass name keep)
  | snapshot (name : String) : Timeless (.snapshot name)
  | summary (name : String) : Timeless (.summary name)
  | addGroup (manager group : String) (pid : Nat) : Timeless (.addGroup manager group pid)
  | createGroup (manager group : String) (pid : Nat) : Timeless (.createGroup manager group pid)
  | dropGroup (group : String) : Timeless (.dropGroup group)
  | removeGroup (manager group : String) : Timeless (.removeGroup manager group)
  | report (manager group : String) (old new : Nat) : Timeless (.report manager group old new)
  | groupSize (manager group : String) : Timeless (.groupSize manager group)
  | reportHandle (group : String) (old new : Nat) : Timeless (.reportHandle group old new)
  | handleSize (group : String) : Timeless (.handleSize group)

/-- A script of timeless steps. -/
def TimelessScript (script : Script) : Prop := ∀ step ∈ script, Timeless step

/-- A step that moves the clock ahead, if at all. -/
inductive Forward : Step → Prop where
  | timeless {step : Step} (hstep : Timeless step) : Forward step
  | advance (span : Nanos) : Forward (.advance span)
  | runNext : Forward .runNext
  | offThread {step : Step} (hstep : Forward step) : Forward (.offThread step)

/-- A pump that leaves nothing that is due. -/
inductive Drains : Step → Prop where
  | runUntilIdle : Drains .runUntilIdle
  | advance (span : Nanos) : Drains (.advance span)
  | offThread {step : Step} (hstep : Drains step) : Drains (.offThread step)

/-- **A step that asks the only manager for a pass**, at once or after a delay: directly, because
it changes the number of windows, or because it reports that a group that is open grew, and all
groups together hold more than there is. -/
inductive Asks (managers : Roster (ManagerSeat Script)) (groupIds : Table String GroupId)
    (groupHandles : Table String GroupHandle) (m : Manager) : Bool → Step → Prop where
  | schedule {name : String} (hname : managers.number? name = some 0) (immediate : Bool) :
    Asks managers groupIds groupHandles m immediate (.schedule name immediate)
  | setWindows {name : String} {count : Option Nat} (hname : managers.number? name = some 0)
    (hchanges : m.windows ≠ Manager.normalWindows count) :
    Asks managers groupIds groupHandles m true (.setWindows name count)
  | report {name group : String} {id : GroupId} {old new size : Nat}
    (hname : managers.number? name = some 0) (hgroup : groupIds.find? group = some id)
    (hopen : m.ledger.size? id = some size) (hgrew : old < new)
    (hover : m.available < (m.ledger.report id old new).2.current) :
    Asks managers groupIds groupHandles m false (.report name group old new)
  | reportHandle {group : String} {handle : GroupHandle} {old new size : Nat}
    (hhandle : groupHandles.find? group = some handle) (hmanager : handle.manager = 0)
    (hopen : m.ledger.size? handle.id = some size) (hgrew : old < new)
    (hover : m.available < (m.ledger.report handle.id old new).2.current) :
    Asks managers groupIds groupHandles m false (.reportHandle group old new)
  | offThread {immediate : Bool} {step : Step}
    (hstep : Asks managers groupIds groupHandles m immediate step) :
    Asks managers groupIds groupHandles m immediate (.offThread step)

variable {debts : Nat → Nanos → Prop} {now : Nanos}

theorem indifferent_prompting {Good : Script → Prop} :
    Indifferent (Prompting Good debts now : Host Script → Prop) where
  onThread _ _ h := h
  inUse _ _ h := h
  groupIds _ _ h := h
  groupHandles _ _ h := h
  snapshots _ _ h := h

theorem indifferent_promptingFrom {Good : Script → Prop} :
    Indifferent (PromptingFrom Good debts now : Host Script → Prop) where
  onThread _ _ h := h
  inUse _ _ h := h
  groupIds _ _ h := h
  groupHandles _ _ h := h
  snapshots _ _ h := h

/-! ## What an embedder changes -/

section Changes

variable {Good : Script → Prop} {h : Host Script}

/-- A new stub with good scripts. -/
theorem prompting_newStub (hP : Prompting Good debts now h) (name : String)
    {stub : StubRecord Script} (hstub : Good stub.onRequest ∧ Good stub.onGrant) :
    Prompting Good debts now { h with state := { h.state with
      stubs := (h.state.stubs.enroll name stub).2 } } := by
  obtain ⟨hnow, seat, hP⟩ := hP
  refine ⟨hnow, seat, { hP with stubs := fun {other} hother => ?_ }⟩
  have hmem : other ∈ h.state.stubs.members ++ [stub] := hother
  rcases List.mem_append.1 hmem with hknown | hnew
  · exact hP.stubs hknown
  · rw [List.mem_singleton.1 hnew]
    exact hstub

theorem prompting_editStub (hP : Prompting Good debts now h) (number : Nat)
    {edit : StubEdit Script} (hrequest : ∀ s, edit.onRequest = some s → Good s)
    (hgrant : ∀ s, edit.onGrant = some s → Good s) :
    Prompting Good debts now { h with state := { h.state with
      stubs := h.state.stubs.update number (Host.editStub edit) } } := by
  obtain ⟨hnow, seat, hP⟩ := hP
  have hedited (stub : StubRecord Script) (hstub : Good stub.onRequest ∧ Good stub.onGrant) :
      Good (Host.editStub edit stub).onRequest ∧ Good (Host.editStub edit stub).onGrant :=
    ⟨good_getD hrequest hstub.1, good_getD hgrant hstub.2⟩
  have hstubs := Roster.forall_mem_update number (fun _ => hP.stubs) hedited
  exact ⟨hnow, seat, { hP with stubs := fun hstub => hstubs _ hstub }⟩

end Changes

/-! ## Every timeless step -/

/-- **Every timeless step keeps the manager prompt**, if the timeless scripts that are run
meanwhile do. -/
theorem keeps_perform_prompting {run : Script → Act Script Unit}
    (hrun : ∀ now script, TimelessScript script →
      (run script).Keeps (Prompting TimelessScript debts now))
    (fuel : Nat) {step : Step} (hstep : Timeless step) :
    (perform run fuel step).Keeps (Prompting TimelessScript debts now) := by
  have hP : Indifferent (Prompting TimelessScript debts now) := indifferent_prompting
  induction hstep with
  | offThread _ ih => rw [perform]; exact hP.offThread ih
  | runUntilIdle =>
    rw [perform]
    refine Keeps.bind (fun h hP => ?_) fun _ => .pure _
    exact (settles_runUntilIdle hrun fuel hP).imp (fun _ _ hsettled => hsettled.1)
      fun _ _ _ => trivial
  | runnerInfo => rw [perform]; exact keeps_residents.bind fun _ => .pure _
  | post label delay hscript =>
    rw [perform]
    exact keeps_post_plain label delay (keeps_post_prompting label hscript delay)
  | newStub name surface requested shares sizeFrom hrequest hgrant =>
    rw [perform]
    exact .bind (keeps_change fun _ hP => prompting_newStub hP name ⟨hrequest, hgrant⟩)
      fun _ => .pure _
  | editStub name hrequest hgrant =>
    rw [perform]
    exact keeps_lookUp fun number => .bind
      (keeps_change fun _ hP => prompting_editStub hP number hrequest hgrant) fun _ => .pure _
  | editOwner name henumerate =>
    rw [perform]
    exact keeps_lookUp fun number => .bind (keeps_change fun _ hP => hP.update number
      (fun _ => rfl) (fun _ => ⟨⟨rfl, rfl, rfl⟩, rfl⟩)
      fun _ hknown => good_getD henumerate hknown) fun _ => .pure _
  | manage name =>
    rw [perform]
    exact hP.withManager name fun number =>
      (keeps_manage_prompting (hrun now) number).bind fun _ => .pure _
  | schedule name immediate =>
    rw [perform]
    exact hP.withManager name fun number =>
      (keeps_schedule_prompting number immediate).bind fun _ => .pure _
  | setWindows name count =>
    rw [perform]
    exact hP.withManager name fun number =>
      (keeps_setWindows_prompting number count).bind fun _ => .pure _
  | shutdownManager name =>
    rw [perform]
    exact hP.withManager name fun number =>
      (keeps_shutdownManager_prompting number).bind fun _ => .pure _
  | usage name =>
    rw [perform]
    exact hP.withSeat name fun _ => (Keeps.ofExcept _).bind fun _ => .pure _
  | lastPass name keep => rw [perform]; exact hP.showLastPass name keep
  | snapshot name =>
    rw [perform]
    exact keeps_residents.bind fun _ => keeps_withNamed _ fun _ => .pure _
  | summary name => rw [perform]; exact hP.withSeat name fun _ => .pure _
  | addGroup manager group pid =>
    rw [perform]
    exact hP.openGroup manager group pid false (fun number => keeps_addGroup_prompting number pid)
      keeps_releaseHandle_prompting
  | createGroup manager group pid =>
    rw [perform]
    exact hP.openGroup manager group pid true (fun number => keeps_addGroup_prompting number pid)
      keeps_releaseHandle_prompting
  | dropGroup group => rw [perform]; exact hP.dropGroup group keeps_releaseHandle_prompting
  | removeGroup manager group =>
    rw [perform]
    exact hP.withGroup manager group fun number id =>
      (keeps_removeGroup_prompting number id).bind fun _ => .pure _
  | report manager group old new =>
    rw [perform]
    exact hP.withGroup manager group fun number id =>
      (keeps_reportGroup_prompting number id old new).bind fun _ => .pure _
  | groupSize manager group =>
    rw [perform]
    exact hP.withGroup manager group fun number _ => (keeps_seat? number).bind fun found =>
      keeps_withNamed found fun _ => .pure _
  | reportHandle group old new =>
    rw [perform]
    exact keeps_lookUp fun handle => (keeps_reportHandle_prompting handle old new).bind
      fun _ => .pure _
  | handleSize group =>
    rw [perform]
    exact keeps_residents.bind fun _ => keeps_withNamed _ fun _ => .pure _

/-- A script of timeless steps, run with some fuel for each. -/
theorem keeps_script_prompting {fuel : Nat}
    (hexec : ∀ now step, Timeless step →
      (exec fuel step).Keeps (Prompting TimelessScript debts now))
    (now : Nanos) (script : Script) (hscript : TimelessScript script) :
    (script.forM fun inner => do note inner (← exec fuel inner) : Act Script PUnit).Keeps
      (Prompting TimelessScript debts now) :=
  .forM fun inner hinner => (hexec now inner (hscript inner hinner)).bind
    fun _ _ hP => hP.emit rfl

/-- The same for steps within steps, whatever the fuel. -/
theorem keeps_exec_prompting (fuel : Nat) (now : Nanos) (step : Step) (hstep : Timeless step) :
    (exec fuel step).Keeps (Prompting TimelessScript debts now) := by
  induction fuel generalizing step now with
  | zero => exact .halt _
  | succ fuel ih => exact keeps_perform_prompting (keeps_script_prompting ih) fuel hstep

/-! ## Steps on the top -/

section Top

variable {run : Script → Act Script Unit} {seat : ManagerSeat Script}

/-- **A forward step** keeps the manager prompt, and the clock does not go back. -/
theorem keeps_perform_forward
    (hrun : ∀ now script, TimelessScript script →
      (run script).Keeps (Prompting TimelessScript debts now))
    (fuel : Nat) {step : Step} (hstep : Forward step) :
    (perform run fuel step).Keeps (PromptingFrom TimelessScript debts now) := by
  induction hstep with
  | timeless hstep =>
    rintro h ⟨now', hle, hP⟩
    exact (keeps_perform_prompting hrun fuel hstep h hP).imp (fun _ _ hP' => ⟨now', hle, hP'⟩)
      fun _ _ _ => trivial
  | advance span =>
    rw [perform]
    refine Keeps.bind (fun h => ?_) fun _ => .pure _
    rintro ⟨now', hle, hP⟩
    exact (settles_advance hrun fuel span hP).imp
      (fun _ _ hsettled => ⟨now' + span, Nat.le_add_right_of_le hle, hsettled.1⟩)
      fun _ _ _ => trivial
  | runNext =>
    rw [perform]
    refine Keeps.bind (fun h => ?_) fun _ => .pure _
    rintro ⟨now', hle, hP⟩
    exact (ends_runNext_prompting hrun hP).imp
      (fun _ _ ⟨now'', hle', hP'⟩ => ⟨now'', Nat.le_trans hle hle', hP'⟩) fun _ _ _ => trivial
  | offThread _ ih => rw [perform]; exact indifferent_promptingFrom.offThread ih

/-- **A pump that has come to its end** has left nothing that is due. -/
theorem settles_perform
    (hrun : ∀ now script, TimelessScript script →
      (run script).Keeps (Prompting TimelessScript debts now))
    (fuel : Nat) {step : Step} (hstep : Drains step) {h : Host Script}
    (hP : PromptingFrom TimelessScript debts now h) :
    (perform run fuel step).Ends h
      (fun _ h' => ∃ now', now ≤ now' ∧ Prompting TimelessScript debts now' h' ∧
        h'.queue.popDue now' = none)
      fun _ _ => True := by
  induction hstep generalizing h with
  | runUntilIdle =>
    obtain ⟨now', hle, hP⟩ := hP
    rw [perform, ends_bind]
    exact (settles_runUntilIdle hrun fuel hP).imp (fun _ _ hsettled => ⟨now', hle, hsettled⟩)
      fun _ _ _ => trivial
  | advance span =>
    obtain ⟨now', hle, hP⟩ := hP
    rw [perform, ends_bind]
    exact (settles_advance hrun fuel span hP).imp
      (fun _ _ hsettled => ⟨now' + span, Nat.le_add_right_of_le hle, hsettled⟩)
      fun _ _ _ => trivial
  | offThread _ ih =>
    rw [perform]
    unfold Host.offThread
    rw [ends_bind, ends_residents, ends_around]
    exact ih hP

/-- What is done with a manager that is named, while it is in use. -/
theorem ends_withManager {P : Host Script → Prop} (hP : Indifferent P) {h : Host Script}
    {name : String} {number : Nat} (hname : h.state.managers.number? name = some number)
    {f : Nat → Act Script Reply}
    (hf : (f number).Ends
      { h with state := { h.state with inUse := .manager number :: h.state.inUse } }
      (fun _ => P) fun _ _ => True) :
    (Host.withManager name f).Ends h (fun _ => P) fun _ _ => True := by
  unfold Host.withManager Host.withNamed
  rw [ends_bind, ends_residents, hname]
  unfold holding
  rw [ends_around]
  exact hf.imp (fun _ h' hP' => hP.inUse h' _ hP') fun _ _ _ => trivial

/-- **A request makes its debt.** -/
theorem ends_perform_asks {managers : Roster (ManagerSeat Script)}
    {groupIds : Table String GroupId} {groupHandles : Table String GroupHandle}
    (hseat : managers.get? 0 = some seat) (fuel : Nat) {step : Step} {immediate : Bool}
    (hasks : Asks managers groupIds groupHandles seat.manager immediate step) {h : Host Script}
    (hmanagers : h.state.managers = managers) (hids : h.state.groupIds = groupIds)
    (hhandles : h.state.groupHandles = groupHandles)
    (hP : Prompting TimelessScript debts now h) :
    (perform run fuel step).Ends h
      (fun _ => Prompting TimelessScript
        (incur debts h.begun (now + if immediate then 0 else seat.manager.delay)) now)
      fun _ _ => True := by
  induction hasks generalizing h with
  | schedule hname immediate =>
    subst hmanagers
    rw [perform]
    refine ends_withManager indifferent_prompting hname ?_
    rw [ends_bind]
    exact ends_schedule_prompting (h := { h with state := { h.state with
      inUse := .manager 0 :: h.state.inUse } }) hseat hP immediate
  | setWindows hname hchanges =>
    subst hmanagers
    rw [perform]
    refine ends_withManager indifferent_prompting hname ?_
    rw [ends_bind]
    exact ends_setWindows_prompting (h := { h with state := { h.state with
      inUse := .manager 0 :: h.state.inUse } }) hseat hP hchanges
  | report hname hgroup hopen hgrew hover =>
    subst hmanagers hids
    rw [perform]
    unfold Host.withGroup
    rw [ends_bind, ends_residents, hgroup]
    refine ends_withManager indifferent_prompting hname ?_
    rw [ends_bind]
    exact ends_reportGroup_prompting (h := { h with state := { h.state with
      inUse := .manager 0 :: h.state.inUse } }) hseat hP hopen hgrew hover
  | @reportHandle group handle old new size hhandle hmanager hopen hgrew hover =>
    subst hmanagers hhandles
    rw [perform, ends_bind, ends_residents, hhandle]
    show (Host.reportHandle handle old new >>= fun _ => pure Reply.done).Ends _ _ _
    rw [ends_bind]
    unfold Host.reportHandle
    rw [ends_bind, ends_residents, hmanager]
    have halive : managerIsAlive h.state 0 = true := by
      obtain ⟨-, only, hP⟩ := hP
      exact Bool.or_eq_true_iff.2 (.inl hP.named)
    rw [if_pos halive]
    exact ends_reportGroup_prompting hseat hP hopen hgrew hover
  | offThread _ ih =>
    rw [perform]
    unfold Host.offThread
    rw [ends_bind, ends_residents, ends_around]
    exact ih (h := { h with state := { h.state with onThread := false } }) hmanagers hids hhandles
      hP

end Top

/-! ## Over whole runs -/

/-- A host on which a manager was made is prompt, and nothing is owed. -/
theorem Does.prompting_newManager {runner : String} {platform : Platform} {name : String}
    {source : ConfigSource} {config : Config} {stubs : List String} {driverTotal : Option Nat}
    {onEnumerate : Script} {reply : Reply} {h : Host Script}
    (hsource : source.load = .ok config) (henumerate : TimelessScript onEnumerate)
    (hdoes : Does (Host.new runner platform)
      (.newManager name source stubs driverTotal onEnumerate) reply h) :
    PromptingFrom TimelessScript (fun _ _ => False) 0 h := by
  obtain ⟨fuel, hon⟩ := hdoes
  cases fuel with
  | zero => cases hon
  | succ fuel =>
    refine Ends.of_on (E := fun _ _ => True)
      (Q := fun _ => PromptingFrom TimelessScript (fun _ _ => False) 0) ?_ hon
    unfold exec
    rw [perform]
    unfold Host.newManager
    rw [hsource]
    refine ⟨0, Nat.le_refl 0, rfl,
      ⟨Manager.ofConfig platform config, { name, stubs, driverTotal, onEnumerate }, 0⟩, ?_⟩
    exact {
      sole := rfl
      named := rfl
      gate := rfl
      accepting := rfl
      inTime := TaskQueue.inTime_empty
      plain := nofun
      onEnumerate := henumerate
      stubs := nofun
      canceled := nofun
      held := nofun
      waiting := nofun
      counted := nofun
      owed := nofun }

/-- What a forward step keeps, whatever its fuel. -/
theorem keeps_exec_forward (fuel : Nat) {step : Step} (hstep : Forward step) :
    (exec fuel step).Keeps (PromptingFrom TimelessScript debts now) := by
  cases fuel with
  | zero => exact .halt _
  | succ fuel =>
    exact keeps_perform_forward (keeps_script_prompting (keeps_exec_prompting fuel)) fuel hstep

/-- **No request is lost.** Take a run that makes a manager from a valid configuration on a new
host, and then takes forward steps in any order, none of which faults; at its end a step asks
for a pass. Whatever forward steps come next, when a pump has come to its end then a pass has
started since the request, or the manager is shut down: after any such pump if the request
was immediate, and if it was delayed, after one by which the clock reads the time of the
request plus the manager's delay. -/
theorem Run.no_request_lost {runner : String} {platform : Platform} {name : String}
    {source : ConfigSource} {config : Config} {stubs : List String} {driverTotal : Option Nat}
    {onEnumerate : Script} {before later : List Step} {request pump : Step} {immediate : Bool}
    {reply reply' : Reply} {h h₁ h₂ h₃ : Host Script} {seat : ManagerSeat Script}
    (hsource : source.load = .ok config) (henumerate : TimelessScript onEnumerate)
    (hbefore : ∀ step ∈ before, Forward step) (hlater : ∀ step ∈ later, Forward step)
    (hdrains : Drains pump)
    (hrun : Run (Host.new runner platform)
      (.newManager name source stubs driverTotal onEnumerate :: before) h)
    (hseat : h.state.managers.get? 0 = some seat)
    (hasks : Asks h.state.managers h.state.groupIds h.state.groupHandles seat.manager immediate
      request)
    (hrequest : Does h request reply h₁) (hrest : Run h₁ later h₂)
    (hpump : Does h₂ pump reply' h₃) :
    ∃ seat₃, h₃.state.managers.get? 0 = some seat₃ ∧
      ((immediate = false → h.queue.now + seat.manager.delay ≤ h₃.queue.now) →
        h.begun < h₃.begun ∨ seat₃.manager.shutDown = true) := by
  cases hrun with
  | cons hfirst hbeginning =>
    obtain ⟨now, -, hP⟩ := hbeginning.keeps (hfirst.prompting_newManager hsource henumerate)
      fun step hstep fuel => keeps_exec_forward fuel (hbefore step hstep)
    obtain rfl := hP.1
    -- the request leaves its debt
    obtain ⟨fuel₁, hon₁⟩ := hrequest
    cases fuel₁ with
    | zero => cases hon₁
    | succ fuel₁ =>
      have hP₁ := (ends_perform_asks hseat fuel₁ hasks rfl rfl rfl hP).of_on hon₁
      have hP₂ := hrest.keeps ⟨h.queue.now, Nat.le_refl _, hP₁⟩ fun step hstep fuel =>
        keeps_exec_forward fuel (hlater step hstep)
      -- which is paid when nothing is due by its deadline any more
      obtain ⟨fuel₃, hon₃⟩ := hpump
      cases fuel₃ with
      | zero => cases hon₃
      | succ fuel₃ =>
        obtain ⟨now₃, hle, ⟨rfl, seat₃, hP₃⟩, hnone⟩ := (settles_perform
          (keeps_script_prompting (keeps_exec_prompting fuel₃)) fuel₃ hdrains hP₂).of_on hon₃
        refine ⟨seat₃, hP₃.get?_zero, fun hdeadline => hP₃.paid hnone (.inr ⟨rfl, rfl⟩) ?_⟩
        cases immediate with
        | true => exact hle
        | false => exact hdeadline rfl

/-- A stub that asks for a delayed pass whenever it is asked in one, and a pass that was started
by hand. -/
def overture : List Step :=
  [.newStub "tab" (some ⟨1, true, 0⟩) 300 [] none [.schedule "gpu" false] [],
    .addGroup "gpu" "heap" 7, .advance 5, .manage "gpu"]

/-- An immediate request that takes the place of a delayed one, and another delayed one after
it. -/
def interlude : List Step :=
  [.schedule "gpu" true, .schedule "gpu" false, .advance 1, .report "gpu" "heap" 0 9]

theorem forward_overture : ∀ step ∈ overture, Forward step := by
  unfold overture
  simp only [List.forall_mem_cons]
  exact ⟨.timeless (.newStub _ _ _ _ _ (List.forall_mem_singleton.2 (.schedule _ _))
    (List.forall_mem_nil _)), .timeless (.addGroup _ _ _), .advance 5, .timeless (.manage _),
    List.forall_mem_nil _⟩

theorem forward_interlude : ∀ step ∈ interlude, Forward step := by
  unfold interlude
  simp only [List.forall_mem_cons]
  exact ⟨.timeless (.schedule _ _), .timeless (.schedule _ _), .advance 1,
    .timeless (.report _ _ _ _), List.forall_mem_nil _⟩

/-- A delayed request that is taken down by an immediate one. -/
theorem Run.no_request_lost_interlude :
    ∃ h h₁ h₂ h₃ reply reply', Run (Host.new "main" .desktop)
        (.newManager "gpu" (.fields {}) ["tab"] none [] :: overture) h ∧
      Does h (.schedule "gpu" false) reply h₁ ∧ Run h₁ interlude h₂ ∧
      Does h₂ (.advance 67000000) reply' h₃ ∧ h.begun < h₃.begun := by
  have hend : ((after? 9 (.newManager "gpu" (.fields {}) ["tab"] none [] :: overture)
      (Host.new "main" .desktop)).bind fun h => (after? 9 [.schedule "gpu" false] h).bind fun h₁ =>
      (after? 9 interlude h₁).bind fun h₂ => (after? 9 [.advance 67000000] h₂).bind fun h₃ =>
      (h.state.managers.get? 0).bind fun seat => (h₃.state.managers.get? 0).map fun seat₃ =>
        (h.state.managers.number? "gpu", seat₃.manager.shutDown,
          decide (h.queue.now + seat.manager.delay ≤ h₃.queue.now)))
      = some (some 0, false, true) := by
    decide +kernel
  simp only [Option.bind_eq_some_iff, Option.map_eq_some_iff, Prod.mk.injEq,
    decide_eq_true_eq] at hend
  obtain ⟨h, hbefore, h₁, hrequest, h₂, hlater, h₃, hpump, seat, hseat, seat₃, hseat₃, hname, hup,
    hdeadline⟩ := hend
  obtain ⟨reply, hrequest⟩ := Does.of_after? hrequest
  obtain ⟨reply', hpump⟩ := Does.of_after? hpump
  have hrun := Run.of_after? hbefore
  have hrest := Run.of_after? hlater
  obtain ⟨seat', hseat', hpaid⟩ := Run.no_request_lost rfl (List.forall_mem_nil _)
    forward_overture forward_interlude (.advance 67000000) hrun hseat (.schedule hname false)
    hrequest hrest hpump
  obtain rfl := Option.some.inj (hseat₃.symm.trans hseat')
  refine ⟨h, h₁, h₂, h₃, reply, reply', hrun, hrequest, hrest, hpump, ?_⟩
  exact (hpaid fun _ => hdeadline).resolve_right (by rw [hup]; exact Bool.false_ne_true)

end Compositor.Step
