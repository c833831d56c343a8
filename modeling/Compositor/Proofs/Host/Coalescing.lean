import Compositor.Host.Running
import Compositor.Proofs.Host.Ends
import Compositor.Proofs.Manager.Requests

/-!
# One manager, one pass

On a host with one manager, what the manager waits for stays tied to the tasks that wait
in the queue, whatever is asked of the manager and however the queue is pumped. While a
task runs it is not in the queue any more; then the tie is to the task together with
those in the queue, until it turns out what becomes of the task.

The passes that have started are counted together with the one that is scheduled. A
pass that starts takes itself from the one to the other, so as long as nobody asks for
more, the count stays what it is.
-/

namespace Compositor

/-- The task of a pass of a manager, with its guard if it has one. -/
def PostedPass.guardedTask {S : Type} (manager : Nat) : PostedPass → Task S
  | .now => .pass manager
  | .later handle => .guarded handle (.pass manager)

/-- The task that is posted for a pass of a manager. -/
def PostedPass.task {S : Type} (proxy manager : Nat) (p : PostedPass) : Task S :=
  .proxied proxy (p.guardedTask manager)

/-- The pass that a task was posted for. -/
def Task.postedPass? {S : Type} : Task S → Option PostedPass
  | .proxied _ (.pass _) => some .now
  | .proxied _ (.guarded handle (.pass _)) => some (.later handle)
  | _ => none

@[simp] theorem Task.postedPass?_task {S : Type} (proxy manager : Nat) (p : PostedPass) :
    (p.task proxy manager : Task S).postedPass? = some p := by
  cases p <;> rfl

namespace Host

open Compositor.Action

variable {S : Type}

/-- How many passes the observer has seen start. -/
def begun (h : Host S) : Nat := h.state.events.countP Event.isEnumerate

/-- Seeing something else does not count. -/
theorem begun_see {h : Host S} {e : Event S} (he : e.isEnumerate = false) :
    begun { h with state := { h.state with events := e :: h.state.events } } = h.begun :=
  List.countP_cons_of_neg (Bool.not_eq_true _ ▸ he)

/-- A task is either a good script or a pass of the only manager. -/
inductive IsPlain (Good : S → Prop) (proxy : Nat) : Task S → Prop where
  | scripted {label : String} {script : S} (hgood : Good script) :
    IsPlain Good proxy (.scripted label script)
  | pass (p : PostedPass) : IsPlain Good proxy (p.task proxy 0)

/-- **What the only manager waits for is what waits in the queue**, and the gate to the queue
is open as long as the manager is not shut down. Whatever may be called back is good. -/
structure Coalesced (Good : S → Prop) (proxies : Roster Proxy) (handles : Handles)
    (stubs : Roster (StubRecord S)) (managers : Roster (ManagerSeat S)) (tasks : List (Task S))
    (seat : ManagerSeat S) : Prop where
  sole : managers.members = [seat]
  named : managers.isNamed 0 = true
  gate : (proxies.get? seat.proxy).map Proxy.shutDown = some seat.manager.shutDown
  passes : seat.manager.Coalesced handles (tasks.filterMap Task.postedPass?)
  plain {task : Task S} (htask : task ∈ tasks) : IsPlain Good seat.proxy task
  onEnumerate : Good seat.owner.onEnumerate
  stubs {stub : StubRecord S} (hstub : stub ∈ stubs.members) :
    Good stub.onRequest ∧ Good stub.onGrant

/-- How many passes have started or are scheduled. -/
def begunOrScheduled (h : Host S) (seat : ManagerSeat S) : Nat :=
  h.begun + if seat.manager.isScheduled h.state.handles then 1 else 0

/-- Some tasks are what the only manager waits for, and something is true of the number of
passes that have started or are scheduled. -/
def Waits (Good : S → Prop) (R : Nat → Prop) (tasks : List (Task S)) (h : Host S) : Prop :=
  ∃ seat, Coalesced Good h.state.proxies h.state.handles h.state.stubs h.state.managers tasks seat ∧
    R (h.begunOrScheduled seat)

/-- The tasks in the queue of a host. -/
def queued (h : Host S) : List (Task S) := h.queue.pending.map Pending.task

/-- What the only manager waits for is what waits in the queue. -/
def Coalescing (Good : S → Prop) (R : Nat → Prop) (h : Host S) : Prop := Waits Good R h.queued h

variable {Good : S → Prop} {R : Nat → Prop} {proxies : Roster Proxy} {handles : Handles}
  {stubs : Roster (StubRecord S)} {managers : Roster (ManagerSeat S)} {tasks : List (Task S)}
  {seat : ManagerSeat S}

namespace Coalesced

theorem get?_zero (h : Coalesced Good proxies handles stubs managers tasks seat) :
    managers.get? 0 = some seat :=
  Roster.get?_zero_of_sole h.sole

/-- There is no other manager. -/
theorem eq_of_get? (h : Coalesced Good proxies handles stubs managers tasks seat) {number : Nat}
    {seat' : ManagerSeat S} (hseat : managers.get? number = some seat') :
    number = 0 ∧ seat' = seat :=
  Roster.eq_of_sole h.sole hseat

/-- The manager and what it waits for change together. -/
theorem update (h : Coalesced Good proxies handles stubs managers tasks seat) {m : Manager}
    {handles' : Handles} {tasks' : List (Task S)} (hdown : m.shutDown = seat.manager.shutDown)
    (hpasses : m.Coalesced handles' (tasks'.filterMap Task.postedPass?))
    (hplain : ∀ task ∈ tasks', IsPlain Good seat.proxy task) :
    Coalesced Good proxies handles' stubs
      (managers.update 0 fun s => { s with manager := m }) tasks' { seat with manager := m } where
  sole := Roster.members_update_zero h.sole _
  named := h.named
  gate := h.gate.trans (congrArg some hdown.symm)
  passes := hpasses
  plain htask := hplain _ htask
  onEnumerate := h.onEnumerate
  stubs := h.stubs

/-- A task has its turn that was not posted for a pass. -/
theorem of_scripted {label : String} {script : S}
    (h : Coalesced Good proxies handles stubs managers (.scripted label script :: tasks) seat) :
    Coalesced Good proxies handles stubs managers tasks seat :=
  { h with
    passes := h.passes
    plain := fun htask => h.plain (List.mem_cons_of_mem _ htask) }

/-- A task of a pass among the tasks is that pass among the passes that were posted. -/
theorem passes_cons {p : PostedPass}
    (h : Coalesced Good proxies handles stubs managers (p.task seat.proxy 0 :: tasks) seat) :
    seat.manager.Coalesced handles (p :: tasks.filterMap Task.postedPass?) := by
  have hpasses := h.passes
  rwa [List.filterMap_cons_some (Task.postedPass?_task _ _ p)] at hpasses

/-- A pass has its turn that would not run. -/
theorem of_dead {p : PostedPass}
    (h : Coalesced Good proxies handles stubs managers (p.task seat.proxy 0 :: tasks) seat)
    (hdead : p.isLive handles = false) :
    Coalesced Good proxies handles stubs managers tasks seat :=
  { h with
    passes := h.passes_cons.of_dead_cons hdead
    plain := fun htask => h.plain (List.mem_cons_of_mem _ htask) }

/-- After the end a pass finds the gate shut. -/
theorem of_shut {p : PostedPass}
    (h : Coalesced Good proxies handles stubs managers (p.task seat.proxy 0 :: tasks) seat)
    (hdown : seat.manager.shutDown = true) :
    Coalesced Good (proxies.update seat.proxy Proxy.drop) handles stubs managers tasks seat :=
  { h with
    gate := by
      rw [Roster.get?_update_self, Option.map_map]
      exact h.gate
    passes := h.passes_cons.of_cons_of_shutDown hdown
    plain := fun htask => h.plain (List.mem_cons_of_mem _ htask) }

/-- A live pass has its turn, or it was not accepted. -/
theorem of_live {p : PostedPass}
    (h : Coalesced Good proxies handles stubs managers (p.task seat.proxy 0 :: tasks) seat)
    (hup : seat.manager.shutDown = false) (hlive : p.isLive handles = true) :
    Coalesced Good proxies (seat.manager.clearWaiting handles).2 stubs
      (managers.update 0 fun s => { s with manager := (seat.manager.clearWaiting handles).1 })
      tasks { seat with manager := (seat.manager.clearWaiting handles).1 } :=
  h.update rfl (h.passes_cons.of_live_turn hup hlive)
    fun _ htask => h.plain (List.mem_cons_of_mem _ htask)

/-- **The end**: the gate is shut, and nothing is waited for. -/
theorem shutDown {gate : Proxy}
    (h : Coalesced Good proxies handles stubs managers tasks seat)
    (hgate : proxies.get? seat.proxy = some gate) :
    Coalesced Good (proxies.update seat.proxy fun _ => { gate with shutDown := true })
      ({ seat.manager with shutDown := true }.clearWaiting handles).2 stubs
      (managers.update 0 fun s =>
        { s with manager := ({ seat.manager with shutDown := true }.clearWaiting handles).1 })
      tasks
      { seat with manager := ({ seat.manager with shutDown := true }.clearWaiting handles).1 } where
  sole := Roster.members_update_zero h.sole _
  named := h.named
  gate := by
    rw [Roster.get?_update_of_some hgate]
    rfl
  passes := h.passes.shutDown
  plain := h.plain
  onEnumerate := h.onEnumerate
  stubs := h.stubs

/-- The order in which tasks wait does not matter. -/
theorem perm {tasks' : List (Task S)}
    (h : Coalesced Good proxies handles stubs managers tasks seat) (hperm : tasks'.Perm tasks) :
    Coalesced Good proxies handles stubs managers tasks' seat :=
  { h with
    passes := h.passes.perm (hperm.filterMap _)
    plain := fun htask => h.plain (hperm.mem_iff.1 htask) }

end Coalesced

/-! ## What does not touch the requests -/

/-- A change of a seat that leaves its proxy and the requests of its manager alone, and its
owner with a good script. -/
theorem Waits.update {h : Host S} (hW : Waits Good R tasks h) (number : Nat)
    {f : ManagerSeat S → ManagerSeat S}
    (hproxy : ∀ seat : ManagerSeat S, (f seat).proxy = seat.proxy)
    (hsame : ∀ seat : ManagerSeat S, seat.manager.SameRequests (f seat).manager)
    (howner : ∀ seat : ManagerSeat S,
      Good seat.owner.onEnumerate → Good (f seat).owner.onEnumerate) :
    Waits Good R tasks { h with state := { h.state with
      managers := h.state.managers.update number f } } := by
  obtain ⟨seat, hC, hR⟩ := hW
  cases number with
  | zero =>
    refine ⟨f seat, ⟨Roster.members_update_zero hC.sole f, hC.named, ?_,
      hC.passes.congr (hsame seat), fun htask => ?_, howner seat hC.onEnumerate, hC.stubs⟩, ?_⟩
    · rw [hproxy, (hsame seat).shutDown]
      exact hC.gate
    · rw [hproxy]
      exact hC.plain htask
    · unfold begunOrScheduled
      rw [(hsame seat).isScheduled_eq]
      exact hR
  | succ number =>
    have hupdate := Roster.update_succ_of_sole hC.sole number f
    exact ⟨seat, hupdate.symm ▸ hC, hR⟩

theorem keeps_changeManager_sameRequests (number : Nat) {f : Manager → Manager}
    (hf : ∀ m, Manager.SameRequests m (f m)) :
    (changeManager number f).Keeps (Coalescing Good R : Host S → Prop) :=
  fun _ hW => Waits.update hW number (fun _ => rfl) (fun seat => hf seat.manager) fun _ => id

/-- An event that is not the start of a pass. -/
theorem Waits.emit {h : Host S} (hW : Waits Good R tasks h) {e : Event S}
    (he : e.isEnumerate = false) :
    Waits Good R tasks { h with state := { h.state with events := e :: h.state.events } } := by
  obtain ⟨seat, hC, hR⟩ := hW
  refine ⟨seat, hC, ?_⟩
  unfold begunOrScheduled begun at hR ⊢
  rw [List.countP_cons_of_neg (by rw [he]; exact Bool.false_ne_true)]
  exact hR

/-! ## Passes -/

section Passes

variable {run : S → Act S Unit}

/-- What becomes of the task of a pass: the gate is looked at first, and then the guard if
there is one. -/
theorem ends_runTask_task {h : Host S} {Q : Unit → Host S → Prop} {E : Halt → Host S → Prop}
    {proxy : Nat} {gate : Proxy} (hgate : h.state.proxies.get? proxy = some gate)
    (manager : Nat) (p : PostedPass) :
    (runTask run (p.task proxy manager)).Ends h Q E
      ↔ if gate.shutDown then
          Q () { h with state := { h.state with
            proxies := h.state.proxies.update proxy Proxy.drop } }
        else if p.isLive h.state.handles then (runPass run manager).Ends h Q E
        else Q () h := by
  cases p with
  | now =>
    simp only [PostedPass.task, PostedPass.guardedTask, runTask, ends_bind, ends_residents,
      hgate, Option.map_some, Option.getD_some]
    cases gate.shutDown <;> exact Iff.rfl
  | later handle =>
    simp only [PostedPass.task, PostedPass.guardedTask, runTask, ends_bind, ends_residents,
      hgate, Option.map_some, Option.getD_some]
    cases gate.shutDown with
    | true => exact Iff.rfl
    | false =>
      simp only [Bool.false_eq_true, if_false, ends_bind, ends_residents]
      by_cases hcanceled : h.state.handles.isCanceled handle = true
      · rw [if_pos hcanceled, if_neg (by simp [hcanceled])]
        exact Iff.rfl
      · rw [if_neg hcanceled, if_pos (by simpa using hcanceled)]

theorem passStable_coalescing
    (hrun : ∀ script, Good script → (run script).Keeps (Coalescing Good R)) :
    PassStable run Good (Coalescing Good R) where
  emit he _ _ := fun _ hW => Waits.emit hW he
  run := hrun _
  onEnumerate := by
    rintro h number seat ⟨only, hC, -⟩ hseat
    obtain ⟨-, rfl⟩ := hC.eq_of_get? hseat
    exact hC.onEnumerate
  onRequest := by
    rintro h id stub ⟨seat, hC, -⟩ hstub
    exact (hC.stubs (List.mem_of_getElem? hstub)).1
  onGrant := by
    rintro h id stub ⟨seat, hC, -⟩ hstub
    exact (hC.stubs (List.mem_of_getElem? hstub)).2
  grant id allocation := by
    rintro h ⟨seat, hC, hR⟩
    have hstubs := Roster.forall_mem_update id (f := fun s : StubRecord S =>
      { s with allocation }) (fun _ => hC.stubs) fun _ hgood => hgood
    exact ⟨seat, { hC with stubs := fun hstub => hstubs _ hstub }, hR⟩
  count number := keeps_changeManager_sameRequests number fun _ => ⟨rfl, rfl, rfl⟩
  publish {_ number _} hP _ _ b _ plan _ :=
    keeps_changeManager_sameRequests number (f := fun m => m.publish b.total plan)
      (fun _ => ⟨rfl, rfl, rfl⟩) _ hP

/-- **A live pass has its turn.** What was scheduled starts, and from there on the pass does
what any pass does. -/
theorem ends_runPass (hrun : ∀ script, Good script → (run script).Keeps (Coalescing Good R))
    {h : Host S} {p : PostedPass} (hup : seat.manager.shutDown = false)
    (hC : Coalesced Good h.state.proxies h.state.handles h.state.stubs h.state.managers
      (p.task seat.proxy 0 :: h.queued) seat) (hR : R (h.begunOrScheduled seat))
    (hlive : p.isLive h.state.handles = true) :
    (runPass run 0).Ends h (fun _ => Coalescing Good R) fun _ _ => True := by
  have halive : managerIsAlive h.state 0 = true := Bool.or_eq_true_iff.2 (.inl hC.named)
  have hpasses := hC.passes_cons
  have hcleared := hC.of_live hup hlive
  unfold runPass
  simp only [ends_bind, ends_residents, halive, if_true]
  unfold holding
  rw [ends_around]
  refine Ends.imp ((passStable_coalescing hrun).manage hC.get?_zero
    (fun hdown => absurd (hdown.symm.trans hup) Bool.noConfusion) fun _ => ?_)
    (fun _ _ hW => hW) fun _ _ _ => trivial
  refine ⟨_, hcleared, ?_⟩
  -- the observer has seen one pass more, and one less is scheduled
  have hscheduled := hpasses.isScheduled_of_awaited (hpasses.of_live_cons hup hlive).1
  unfold begunOrScheduled at hR ⊢
  rw [hscheduled] at hR
  rw [Manager.isScheduled_clearWaiting]
  show R ((Event.enumerate seat.owner.name :: h.state.events).countP Event.isEnumerate + 0)
  rw [List.countP_cons_of_pos rfl]
  exact hR

/-- **A task has its turn.** Whatever becomes of it, what is waited for is in the queue
afterwards. -/
theorem ends_runTask (hrun : ∀ script, Good script → (run script).Keeps (Coalescing Good R))
    {h : Host S} {task : Task S} (hW : Waits Good R (task :: h.queued) h) :
    (runTask run task).Ends h (fun _ => Coalescing Good R) fun _ _ => True := by
  obtain ⟨seat, hC, hR⟩ := hW
  cases hC.plain (List.mem_cons_self ..) with
  | @scripted label script hgood =>
    unfold runTask
    simp only [ends_bind, ends_now, ends_emit]
    have hrest : Coalescing Good R h := ⟨seat, hC.of_scripted, hR⟩
    exact hrun script hgood _ (hrest.emit rfl)
  | pass p =>
    obtain ⟨gate, hgate, hshut⟩ := Option.map_eq_some_iff.1 hC.gate
    rw [ends_runTask_task hgate, hshut]
    split
    · next hdown => exact ⟨seat, hC.of_shut hdown, hR⟩
    · next hup =>
      split
      · next hlive => exact ends_runPass hrun (Bool.eq_false_iff.2 hup) hC hR hlive
      · next hdead => exact ⟨seat, hC.of_dead (Bool.eq_false_iff.2 hdead), hR⟩

/-- A task that is taken out of the queue still counts, until it has had its turn. -/
theorem Coalescing.pop {h : Host S} (hW : Coalescing Good R h) {task : Task S}
    {queue : TaskQueue (Task S)} (hpop : h.queue.popNext = some (task, queue)) :
    Waits Good R (task :: queued { h with queue }) { h with queue } := by
  unfold TaskQueue.popNext at hpop
  split at hpop
  · cases hpop
  · next p rest hpending =>
    cases hpop
    have hqueued : h.queued = p.task :: rest.map Pending.task := by
      unfold queued
      rw [hpending]
      rfl
    unfold Coalescing at hW
    rw [hqueued] at hW
    exact hW

/-- **Pumping** keeps what is waited for in the queue. -/
theorem keeps_runUntilIdle
    (hrun : ∀ script, Good script → (run script).Keeps (Coalescing Good R)) (fuel : Nat) :
    (EventLoop.runUntilIdle (runTask run) fuel).Keeps (Coalescing Good R) :=
  EventLoop.keeps_runUntilIdle (fun _ _ _ hW hpop => ends_runTask hrun (hW.pop hpop)) fuel

theorem keeps_advance
    (hrun : ∀ script, Good script → (run script).Keeps (Coalescing Good R)) (fuel : Nat)
    (span : Nanos) : (EventLoop.advance (runTask run) fuel span).Keeps (Coalescing Good R) :=
  EventLoop.keeps_advance (fun _ _ _ hW hpop => ends_runTask hrun (hW.pop hpop))
    (fun _ _ hW _ => hW) fuel span

theorem keeps_runNext
    (hrun : ∀ script, Good script → (run script).Keeps (Coalescing Good R)) :
    (EventLoop.runNext (runTask run)).Keeps (Coalescing Good R) :=
  EventLoop.keeps_runNext fun _ _ _ hW hpop => ends_runTask hrun (hW.pop hpop)

end Passes

/-! ## Posting -/

/-- What becomes of the queue when a task is posted. -/
theorem post_eq_ok {h : Host S} {task : Task S} {delay : Nanos} {accepted : Bool}
    {queue : TaskQueue (Task S)} (hpost : h.queue.post task delay = .ok (accepted, queue)) :
    (accepted = true ∧ (queued { h with queue }).Perm (task :: h.queued)) ∨
      (accepted = false ∧ queue = h.queue) := by
  unfold TaskQueue.post at hpost
  split at hpost
  · cases hdue : Nanos.add h.queue.now delay with
    | error f => rw [hdue] at hpost; cases hpost
    | ok due =>
      rw [hdue] at hpost
      cases hpost
      exact .inl ⟨rfl, (TaskQueue.insert_perm _ _).map Pending.task⟩
  · cases hpost
    exact .inr ⟨rfl, rfl⟩

/-- A good script may be posted. -/
theorem keeps_post_scripted (label : String) {script : S} (hgood : Good script)
    (delay : Nanos) :
    (EventLoop.post (.scripted label script) delay : Act S Bool).Keeps (Coalescing Good R) := by
  rintro h ⟨seat, hC, hR⟩
  refine ends_post fun accepted queue hpost => ?_
  rcases post_eq_ok hpost with ⟨-, hperm⟩ | ⟨-, rfl⟩
  · have hC' : Coalesced Good h.state.proxies h.state.handles h.state.stubs h.state.managers
        (.scripted label script :: h.queued) seat :=
      { hC with
        passes := hC.passes
        plain := fun htask => by
          rcases List.mem_cons.1 htask with rfl | htask
          · exact .scripted hgood
          · exact hC.plain htask }
    exact ⟨seat, hC'.perm hperm, hR⟩
  · exact ⟨seat, hC, hR⟩

/-! ## Tasks that would start a pass -/

/-- The host after a task was run on the runner's own thread, up to the first callback. -/
def attempt (h : Host S) (task : Task S) : Host S :=
  ((runTask (fun _ => throw .outOfFuel) task).on
    { h with state := { h.state with onThread := true } }).2

/-- Whether running a task now would start a pass. -/
def startsPass (h : Host S) (task : Task S) : Bool := decide (h.begun < (h.attempt task).begun)

/-- Whether running the task of a posted pass would start it: the manager is not shut down,
and the pass is live. -/
def isLiveTask (m : Manager) (handles : Handles) (task : Task S) : Bool :=
  !m.shutDown && (task.postedPass?.map (PostedPass.isLive handles)).getD false

/-- A pass that is not let go on past the first callback has started, if the manager was not
shut down. -/
theorem ends_manage_interrupted {h : Host S} {number : Nat} {seat : ManagerSeat S}
    (hthread : h.state.onThread = true) (hseat : h.state.managers.get? number = some seat)
    (hup : seat.manager.shutDown = false) {P : Host S → Prop} (hP : P (started h number seat)) :
    (manage (fun _ => throw .outOfFuel) number).Ends h (fun _ => P) fun _ => P := by
  have hseat₁ : (h.state.managers.update number fun s =>
      { s with manager := (seat.manager.clearWaiting h.state.handles).1 }).get? number
        = some { seat with manager := (seat.manager.clearWaiting h.state.handles).1 } :=
    Roster.get?_update_of_some hseat _
  have hup₁ : (seat.manager.clearWaiting h.state.handles).1.shutDown = false := hup
  unfold manage enumerate
  simp only [ends_bind, ends_requireThread]
  rw [if_pos hthread]
  simp only [ends_bind, ends_seat?, hseat, ends_residents, ends_keep, hup₁, Bool.false_eq_true,
    if_false, hseat₁, ends_emit, ends_throw]
  exact hP

/-- **A task in the queue would start a pass exactly if it was posted for one, which is live,
and the manager is not shut down.** -/
theorem Coalesced.startsPass_eq {h : Host S} {seat : ManagerSeat S}
    (hC : Coalesced Good h.state.proxies h.state.handles h.state.stubs h.state.managers
      h.queued seat) {task : Task S} (htask : task ∈ h.queued) :
    h.startsPass task = isLiveTask seat.manager h.state.handles task := by
  suffices hbegun : (h.attempt task).begun
      = h.begun + if isLiveTask seat.manager h.state.handles task then 1 else 0 by
    unfold startsPass
    rw [hbegun]
    cases isLiveTask seat.manager h.state.handles task <;> simp
  refine Ends.state (P := fun h' : Host S => h'.begun = _) ?_
  obtain ⟨gate, hgate, hshut⟩ := Option.map_eq_some_iff.1 hC.gate
  cases hC.plain htask with
  | @scripted label script hgood =>
    unfold runTask
    simp only [ends_bind, ends_now, ends_emit, ends_throw]
    have hdead : isLiveTask seat.manager h.state.handles (.scripted label script) = false :=
      Bool.and_false _
    rw [hdead]
    exact List.countP_cons_of_neg (p := Event.isEnumerate) (a := .run label h.queue.now)
      Bool.false_ne_true
  | pass p =>
    have hlive : isLiveTask seat.manager h.state.handles (p.task seat.proxy 0 : Task S)
        = (!seat.manager.shutDown && p.isLive h.state.handles) := by
      unfold isLiveTask
      rw [Task.postedPass?_task]
      rfl
    rw [hlive]
    rw [ends_runTask_task (h := { h with state := { h.state with onThread := true } }) hgate,
      hshut]
    cases hdown : seat.manager.shutDown with
    | true => exact rfl
    | false =>
      cases hrun : p.isLive h.state.handles with
      | false => exact rfl
      | true =>
        have halive : managerIsAlive { h.state with onThread := true } 0 = true :=
          Bool.or_eq_true_iff.2 (.inl hC.named)
        unfold runPass
        rw [ends_bind, ends_residents, if_pos halive]
        unfold holding
        rw [ends_around]
        refine ends_manage_interrupted (P := fun h' => begun h' = h.begun + 1) ?_ ?_ hdown ?_
        · rfl
        · exact hC.get?_zero
        · exact List.countP_cons_of_pos rfl

/-- **The tasks in the queue that would start a pass are as many as are scheduled**: one or
none. -/
theorem Coalesced.countP_startsPass {h : Host S} {seat : ManagerSeat S}
    (hC : Coalesced Good h.state.proxies h.state.handles h.state.stubs h.state.managers
      h.queued seat) :
    h.queue.pending.countP (fun p => h.startsPass p.task)
      = if seat.manager.isScheduled h.state.handles then 1 else 0 := by
  have hqueued : h.queue.pending.countP (fun p => h.startsPass p.task)
      = h.queued.countP (isLiveTask seat.manager h.state.handles) := by
    unfold queued
    rw [List.countP_map]
    refine List.countP_congr fun p hp => ?_
    rw [hC.startsPass_eq (List.mem_map_of_mem hp)]
    rfl
  rw [hqueued]
  cases hdown : seat.manager.shutDown with
  | true =>
    rw [hC.passes.isScheduled_of_shutDown hdown]
    refine List.countP_eq_zero.2 fun task _ => ?_
    unfold isLiveTask
    rw [hdown]
    exact Bool.false_ne_true
  | false =>
    rw [← hC.passes.length_live hdown, ← List.countP_eq_length_filter, List.countP_filterMap]
    refine List.countP_congr fun task _ => ?_
    unfold isLiveTask
    rw [hdown, Bool.not_false, Bool.true_and]

end Host

end Compositor
