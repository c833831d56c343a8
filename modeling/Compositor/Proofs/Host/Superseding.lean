import Compositor.Proofs.Host.Refusing
import Compositor.Proofs.Host.Requesting
import Compositor.Proofs.Manager.Evolution

/-!
# What a pass by hand supersedes

A pass may be started by hand, beside those that were posted. It takes down what the manager
waits for: it lowers the flag of the immediate pass and cancels the handle of the delayed one.
That reaches the delayed pass in the queue, which finds its handle canceled when it has its
turn. It does not reach an immediate pass, which is guarded by no handle: its task runs all the
same, and starts another pass.

So the flag does not tell what is in the queue, once passes are started by hand. What can be
told is kept here (`Tended`): of the delayed passes in the queue only the one whose handle is
in the slot may still run. As long as nobody asks for a pass, those that begin are bounded by
the immediate passes that are in the queue (`Lapsed`).
-/

namespace Compositor

namespace Manager

/-- **Of the delayed passes that were posted only the one in the slot may still run.** -/
structure Tracks (m : Manager) (handles : Handles) (posted : List PostedPass) : Prop where
  issued {handle : Handle} (hposted : .later handle ∈ posted) : handle < handles.issued
  live {handle : Handle} (hposted : .later handle ∈ posted)
    (hlive : handles.isCanceled handle = false) : m.delayed.current = some handle

namespace Tracks

variable {m m' : Manager} {handles handles' : Handles} {posted posted' : List PostedPass}

theorem congr (hT : m.Tracks handles posted) (hslot : m'.delayed = m.delayed) :
    m'.Tracks handles posted :=
  ⟨hT.issued, fun hposted hlive => hslot ▸ hT.live hposted hlive⟩

theorem subset (hT : m.Tracks handles posted) (hsub : posted' ⊆ posted) :
    m.Tracks handles posted' :=
  ⟨fun hposted => hT.issued (hsub hposted), fun hposted => hT.live (hsub hposted)⟩

/-- A delayed pass that was posted is canceled once the slot has been emptied. -/
theorem isCanceled_cancel (hT : m.Tracks handles posted) {handle : Handle}
    (hposted : .later handle ∈ posted) : (m.delayed.cancel handles).2.isCanceled handle = true := by
  rw [Slot.isCanceled_cancel, Bool.or_eq_true, decide_eq_true_iff]
  cases hcanceled : handles.isCanceled handle with
  | true => exact .inr rfl
  | false => exact .inl (hT.live hposted hcanceled)

/-- So none is left that may still run, whatever becomes of the manager. -/
theorem emptied (hT : m.Tracks handles posted) (m' : Manager) :
    m'.Tracks (m.delayed.cancel handles).2 posted where
  issued hposted := by
    rw [Slot.issued_cancel]
    exact hT.issued hposted
  live hposted hlive := nomatch (hT.isCanceled_cancel hposted).symm.trans hlive

/-- **A request** takes the place of what may still run, if it is not covered. -/
theorem request {immediate : Bool} {request : Request} (hT : m.Tracks handles posted)
    (hrequest : m.request immediate handles = (request, m', handles')) :
    m'.Tracks handles' (request.posts.toList ++ posted) := by
  rcases request_cases hrequest with
    ⟨rfl, rfl, rfl, -⟩ | ⟨rfl, -, -, -, rfl, rfl⟩ | ⟨rfl, -, -, -, -, rfl, rfl⟩
  · exact hT
  · have hemptied := hT.emptied
      { m with delayed := (m.delayed.cancel handles).1, immediate := true }
    exact ⟨fun hposted => hemptied.issued ((List.mem_cons.1 hposted).resolve_left nofun),
      fun hposted => hemptied.live ((List.mem_cons.1 hposted).resolve_left nofun)⟩
  · have hissued : m.Tracks handles.issue.2 posted :=
      ⟨fun hposted => Nat.lt_succ_of_lt (hT.issued hposted), hT.live⟩
    have hemptied := hissued.emptied { m with delayed := ⟨some handles.issued⟩ }
    refine ⟨fun {handle} hposted => ?_, fun {handle} hposted hlive => ?_⟩
    · rcases List.mem_cons.1 hposted with hnew | hposted
      · cases hnew
        rw [Slot.issued_cancel]
        exact Nat.lt_succ_self _
      · exact hemptied.issued hposted
    · rcases List.mem_cons.1 hposted with hnew | hposted
      · cases hnew
        rfl
      · exact hemptied.live hposted hlive

end Tracks

end Manager

namespace Host

open Compositor.Action

variable {S : Type} {Good : S → Prop} {limit : Option Nat}

/-- How many immediate passes are among some tasks. -/
def immediatePasses (tasks : List (Task S)) : Nat :=
  tasks.countP fun task => task.postedPass? = some .now

/-- **The only manager of a host and what was posted for it**: it has its name, its gate is open
until it is shut down, and of the delayed passes only the one in the slot may still run. Whatever
may be called back is good. -/
structure Tended (Good : S → Prop) (proxies : Roster Proxy) (handles : Handles)
    (stubs : Roster (StubRecord S)) (managers : Roster (ManagerSeat S)) (tasks : List (Task S))
    (seat : ManagerSeat S) : Prop where
  sole : managers.members = [seat]
  named : managers.isNamed 0 = true
  gate (hup : seat.manager.shutDown = false) :
    (proxies.get? seat.proxy).map Proxy.shutDown = some false
  tracks : seat.manager.Tracks handles (tasks.filterMap Task.postedPass?)
  plain {task : Task S} (htask : task ∈ tasks) : IsPlain Good seat.proxy task
  onEnumerate : Good seat.owner.onEnumerate
  stubs {stub : StubRecord S} (hstub : stub ∈ stubs.members) :
    Good stub.onRequest ∧ Good stub.onGrant

/-- **Nothing is waited for**, and the passes that have begun are together with the immediate ones
that were posted no more than a number. -/
structure Lapsed (total begun : Nat) (tasks : List (Task S)) (m : Manager) : Prop where
  immediate : m.immediate = false
  delayed : m.delayed.current = none
  le : begun + immediatePasses tasks ≤ total

/-- The only manager is tended, and if there is a limit to the passes that begin, nothing is waited
for. -/
def Tending (Good : S → Prop) (limit : Option Nat) (tasks : List (Task S)) (h : Host S) : Prop :=
  ∃ seat,
    Tended Good h.state.proxies h.state.handles h.state.stubs h.state.managers tasks seat ∧
    ∀ total, limit = some total → Lapsed total h.begun tasks seat.manager

/-- What was posted for the only manager is in the queue. -/
abbrev Attended (Good : S → Prop) (limit : Option Nat) (h : Host S) : Prop :=
  Tending Good limit h.queued h

theorem Lapsed.isScheduled {total begun : Nat} {tasks : List (Task S)} {m : Manager}
    (h : Lapsed total begun tasks m) (handles : Handles) : m.isScheduled handles = false := by
  unfold Manager.isScheduled Slot.isPending
  rw [h.immediate, h.delayed]
  rfl

namespace Tended

variable {proxies : Roster Proxy} {handles : Handles} {stubs : Roster (StubRecord S)}
  {managers : Roster (ManagerSeat S)} {tasks tasks' : List (Task S)} {seat : ManagerSeat S}

theorem get?_zero (hT : Tended Good proxies handles stubs managers tasks seat) :
    managers.get? 0 = some seat :=
  Roster.get?_zero_of_sole hT.sole

/-- There is no other manager. -/
theorem eq_of_get? (hT : Tended Good proxies handles stubs managers tasks seat) {number : Nat}
    {seat' : ManagerSeat S} (hseat : managers.get? number = some seat') :
    number = 0 ∧ seat' = seat :=
  Roster.eq_of_sole hT.sole hseat

/-- Tasks may be fewer, and in another order. -/
theorem subset (hT : Tended Good proxies handles stubs managers tasks seat)
    (hsub : tasks' ⊆ tasks) : Tended Good proxies handles stubs managers tasks' seat :=
  { hT with
    tracks := hT.tracks.subset (List.filterMap_subset _ hsub)
    plain := fun htask => hT.plain (hsub htask) }

/-- The manager changes, and with it what is posted for it. -/
theorem update (hT : Tended Good proxies handles stubs managers tasks seat) {m : Manager}
    {handles' : Handles} (hdown : m.shutDown = false → seat.manager.shutDown = false)
    (htracks : m.Tracks handles' (tasks'.filterMap Task.postedPass?))
    (hplain : ∀ task ∈ tasks', IsPlain Good seat.proxy task) :
    Tended Good proxies handles' stubs (managers.update 0 fun s => { s with manager := m }) tasks'
      { seat with manager := m } where
  sole := Roster.members_update_zero hT.sole _
  named := hT.named
  gate hup := hT.gate (hdown hup)
  tracks := htracks
  plain htask := hplain _ htask
  onEnumerate := hT.onEnumerate
  stubs := hT.stubs

/-- What waits is taken down. -/
theorem clear (hT : Tended Good proxies handles stubs managers tasks seat) :
    Tended Good proxies (seat.manager.clearWaiting handles).2 stubs
      (managers.update 0 fun s => { s with manager := (seat.manager.clearWaiting handles).1 }) tasks
      { seat with manager := (seat.manager.clearWaiting handles).1 } :=
  hT.update id (hT.tracks.emptied _) fun _ => hT.plain

/-- **The end**: what waits is taken down, and nothing is asked of the gate any more. -/
theorem shutDown (hT : Tended Good proxies handles stubs managers tasks seat)
    (proxies' : Roster Proxy) :
    Tended Good proxies' ({ seat.manager with shutDown := true }.clearWaiting handles).2 stubs
      (managers.update 0 fun s =>
        { s with manager := ({ seat.manager with shutDown := true }.clearWaiting handles).1 }) tasks
      { seat with manager := ({ seat.manager with shutDown := true }.clearWaiting handles).1 } where
  sole := Roster.members_update_zero hT.sole _
  named := hT.named
  gate hup := Bool.noConfusion (show true = false from hup)
  tracks := hT.tracks.emptied _
  plain := hT.plain
  onEnumerate := hT.onEnumerate
  stubs := hT.stubs

/-- **A task would start a pass if it is an immediate pass**, or a delayed one that is in the slot
and was not canceled. -/
theorem startsPass_iff {h : Host S}
    (hT : Tended Good h.state.proxies h.state.handles h.state.stubs h.state.managers tasks seat)
    {task : Task S} (htask : task ∈ tasks) :
    h.startsPass task = true ↔ seat.manager.shutDown = false ∧
      ∃ p, task.postedPass? = some p ∧ p.isLive h.state.handles = true := by
  rw [startsPass_eq]
  have halive : managerIsAlive h.state 0 = true := Bool.or_eq_true_iff.2 (.inl hT.named)
  cases hT.plain htask with
  | scripted hgood => exact ⟨nofun, fun ⟨_, _, hp, _⟩ => nomatch hp⟩
  | pass p =>
    have hpass : leadsToPass h.state (.pass 0) = !seat.manager.shutDown := by
      unfold leadsToPass
      rw [halive, hT.get?_zero]
      rfl
    have hguarded : leadsToPass h.state (p.guardedTask 0)
        = (p.isLive h.state.handles && !seat.manager.shutDown) := by
      cases p with
      | now => exact hpass
      | later handle => exact congrArg (_ && ·) hpass
    have hleads : leadsToPass h.state (p.task seat.proxy 0)
        = (!((h.state.proxies.get? seat.proxy).map Proxy.shutDown).getD true
            && leadsToPass h.state (p.guardedTask 0)) := rfl
    rw [hleads, hguarded, Task.postedPass?_task]
    cases hdown : seat.manager.shutDown with
    | true => simp
    | false =>
      rw [hT.gate hdown]
      simp

/-- If the slot is empty only an immediate pass would start. -/
theorem startsPass_iff_now {h : Host S}
    (hT : Tended Good h.state.proxies h.state.handles h.state.stubs h.state.managers tasks seat)
    (hempty : seat.manager.delayed.current = none) {task : Task S} (htask : task ∈ tasks) :
    h.startsPass task = true ↔
      seat.manager.shutDown = false ∧ task.postedPass? = some .now := by
  rw [hT.startsPass_iff htask]
  refine and_congr_right fun _ => ⟨fun ⟨p, hp, hlive⟩ => ?_, fun hnow => ⟨.now, hnow, rfl⟩⟩
  cases p with
  | now => exact hp
  | later handle =>
    have hheld := hT.tracks.live (List.mem_filterMap.2 ⟨task, htask, hp⟩) (by simpa using hlive)
    exact nomatch hempty.symm.trans hheld

end Tended

/-! ## What leaves the requests alone -/

namespace Tending

variable {tasks tasks' : List (Task S)} {h : Host S}

/-- The manager is tended, and there is no limit to the passes that begin. -/
theorem unlimited (htended : ∃ seat, Tended Good h.state.proxies h.state.handles h.state.stubs
    h.state.managers tasks seat) : Tending Good none tasks h := by
  obtain ⟨seat, hT⟩ := htended
  exact ⟨seat, hT, nofun⟩

/-- Tasks may be fewer, and in another order. -/
theorem subperm (hP : Tending Good limit tasks h) (hsub : tasks'.Subperm tasks) :
    Tending Good limit tasks' h := by
  obtain ⟨seat, hT, hlimit⟩ := hP
  refine ⟨seat, hT.subset hsub.subset, fun total htotal => ?_⟩
  have hlapsed := hlimit total htotal
  exact { hlapsed with le := Nat.le_trans (Nat.add_le_add_left (hsub.countP_le _) _) hlapsed.le }

/-- One task more, which is no pass. -/
theorem scripted (hP : Tending Good limit tasks h) (label : String) {script : S}
    (hgood : Good script) : Tending Good limit (.scripted label script :: tasks) h := by
  obtain ⟨seat, hT, hlimit⟩ := hP
  refine ⟨seat, { hT with tracks := hT.tracks, plain := fun htask => ?_ }, fun total htotal => ?_⟩
  · rcases List.mem_cons.1 htask with rfl | htask
    · exact .scripted hgood
    · exact hT.plain htask
  · have hlapsed := hlimit total htotal
    exact { hlapsed with le := hlapsed.le }

/-- A seat changes that keeps its proxy, what its manager is asked for, and a good owner. -/
theorem update (hP : Tending Good limit tasks h) (number : Nat)
    {f : ManagerSeat S → ManagerSeat S}
    (hproxy : ∀ seat : ManagerSeat S, (f seat).proxy = seat.proxy)
    (hsame : ∀ seat : ManagerSeat S, seat.manager.SameRequests (f seat).manager)
    (howner : ∀ seat : ManagerSeat S,
      Good seat.owner.onEnumerate → Good (f seat).owner.onEnumerate) :
    Tending Good limit tasks { h with state := { h.state with
      managers := h.state.managers.update number f } } := by
  obtain ⟨seat, hT, hlimit⟩ := hP
  cases number with
  | zero =>
    refine ⟨f seat, ⟨Roster.members_update_zero hT.sole f, hT.named, fun hup => ?_,
      hT.tracks.congr (hsame seat).delayed, fun htask => ?_, howner seat hT.onEnumerate,
      hT.stubs⟩, fun total htotal => ?_⟩
    · rw [hproxy]
      exact hT.gate ((hsame seat).shutDown ▸ hup)
    · rw [hproxy]
      exact hT.plain htask
    · have hlapsed := hlimit total htotal
      exact ⟨(hsame seat).immediate.trans hlapsed.immediate,
        ((congrArg Slot.current (hsame seat).delayed).trans hlapsed.delayed), hlapsed.le⟩
  | succ number =>
    have hupdate := Roster.update_succ_of_sole hT.sole number f
    exact ⟨seat, { hT with sole := hupdate.symm ▸ hT.sole, named := hT.named }, hlimit⟩

/-- An event that is not the start of a pass. -/
theorem emit (hP : Tending Good limit tasks h) {e : Event S} (he : e.isEnumerate = false) :
    Tending Good limit tasks
      { h with state := { h.state with events := e :: h.state.events } } := by
  obtain ⟨seat, hT, hlimit⟩ := hP
  refine ⟨seat, hT, fun total htotal => ?_⟩
  rw [begun_see he]
  exact hlimit total htotal

end Tending

theorem preserves_changeManager_attended (number : Nat) {f : Manager → Manager}
    (hf : ∀ m, Manager.SameRequests m (f m)) :
    (changeManager number f).Preserves (Attended Good limit) (Attended Good limit : Host S → Prop) :=
  fun _ hP => hP.update number (fun _ => rfl) (fun seat => hf seat.manager) fun _ => id

/-- What is posted is accepted and waits, or it does not wait. -/
theorem ends_post_attended {h : Host S} {task : Task S} (delay : Nanos)
    (hP : Tending Good limit (task :: h.queued) h) :
    (EventLoop.post task delay : Act S Bool).Ends h (fun _ => Attended Good limit)
      fun _ => Attended Good limit := by
  have hrest : Attended Good limit h := hP.subperm (List.sublist_cons_self ..).subperm
  refine ends_post_cases (fun _ _ => ?_) hrest fun _ => hrest
  have hperm : (queued { h with queue := h.queue.accept task delay }).Perm (task :: h.queued) :=
    (TaskQueue.insert_perm _ _).map Pending.task
  exact hP.subperm hperm.subperm

/-- A good script may be posted. -/
theorem preserves_post_attended (label : String) {script : S} (hgood : Good script)
    (delay : Nanos) :
    (EventLoop.post (.scripted label script) delay : Act S Bool).Preserves
      (Attended Good limit) (Attended Good limit) :=
  fun _ hP => ends_post_attended delay (hP.scripted label hgood)

/-! ## Passes -/

section Passes

variable {run : S → Act S Unit} {E : Host S → Prop} {h : Host S} {seat : ManagerSeat S}

theorem passStable_attended (hE : ∀ h, Attended Good limit h → E h)
    (hrun : ∀ script, Good script → (run script).Preserves (Attended Good limit) E) :
    PassStable run Good (Attended Good limit) E where
  halted := hE
  emit he _ _ := fun _ hP => hP.emit he
  run := hrun _
  onEnumerate := by
    rintro h number seat ⟨only, hT, -⟩ hseat
    obtain ⟨-, rfl⟩ := hT.eq_of_get? hseat
    exact hT.onEnumerate
  onRequest := by
    rintro h id stub ⟨seat, hT, -⟩ hstub
    exact (hT.stubs (List.mem_of_getElem? hstub)).1
  onGrant := by
    rintro h id stub ⟨seat, hT, -⟩ hstub
    exact (hT.stubs (List.mem_of_getElem? hstub)).2
  grant id allocation := by
    rintro h ⟨seat, hT, hlimit⟩
    have hstubs := Roster.forall_mem_update id (f := fun s : StubRecord S =>
      { s with allocation }) (fun _ => hT.stubs) fun _ hgood => hgood
    exact ⟨seat, { hT with stubs := fun hstub => hstubs _ hstub }, hlimit⟩
  count number h hP := hP.update number (fun _ => rfl) (fun _ => ⟨rfl, rfl, rfl⟩) fun _ => id
  publish hP _ _ _ _ _ _ := hP.update _ (fun _ => rfl) (fun _ => ⟨rfl, rfl, rfl⟩) fun _ => id

/-- **A pass takes down whatever waits.** From there on no more passes begin than this one, if the
manager is not shut down, and the immediate ones that are in the queue, if that is the limit. -/
theorem ends_manage_attended (hE : ∀ h, Attended Good limit h → E h)
    (hrun : ∀ script, Good script → (run script).Preserves (Attended Good limit) E)
    (hT : Tended Good h.state.proxies h.state.handles h.state.stubs h.state.managers h.queued seat)
    (hlimit : ∀ total, limit = some total →
      h.begun + (if seat.manager.shutDown then 0 else 1) + immediatePasses h.queued ≤ total)
    (hhalted : E h) :
    (manage run 0).Ends h (fun _ => Attended Good limit) fun _ => E := by
  have hcurrent : (seat.manager.clearWaiting h.state.handles).1.delayed.current = none :=
    Slot.current_cancel seat.manager.delayed h.state.handles
  refine (passStable_attended hE hrun).manage hT.get?_zero (fun hdown => ?_) (fun hup => ?_) hhalted
  · refine ⟨_, hT.clear, fun total htotal => ⟨rfl, hcurrent, ?_⟩⟩
    have hle := hlimit total htotal
    rw [hdown, if_pos rfl] at hle
    exact hle
  · refine ⟨_, hT.clear, fun total htotal => ⟨rfl, hcurrent, ?_⟩⟩
    have hle := hlimit total htotal
    rw [hup, if_neg Bool.false_ne_true] at hle
    -- the observer has seen one more pass start
    have hbegun : (started h 0 seat).begun = h.begun + 1 := List.countP_cons_of_pos rfl
    rw [hbegun]
    exact hle

/-- A pass may be started by hand, as long as there is no limit. -/
theorem preserves_manage_attended
    (hrun : ∀ script, Good script →
      (run script).Preserves (Attended Good none) (Attended Good none)) (number : Nat) :
    (manage run number).Preserves (Attended Good none) (Attended Good none) := by
  rintro h hP
  obtain ⟨seat, hT, -⟩ := id hP
  cases hseat : h.state.managers.get? number with
  | none =>
    rw [ends_manage_of_none hseat]
    split <;> exact hP
  | some found =>
    obtain ⟨rfl, rfl⟩ := hT.eq_of_get? hseat
    exact ends_manage_attended (fun _ hP => hP) hrun hT nofun hP

section Tasks

variable (hrun : ∀ script, Good script →
  (run script).Preserves (Attended Good limit) (Attended Good limit))

include hrun

/-- **A pass that was posted has its turn**, behind an open gate. If there is a limit only an
immediate one still runs. -/
theorem ends_posted_attended {p : PostedPass}
    (hP : Tending Good limit (p.task seat.proxy 0 :: h.queued) h)
    (hT : Tended Good h.state.proxies h.state.handles h.state.stubs h.state.managers
      (p.task seat.proxy 0 :: h.queued) seat)
    (hlive : p.isLive h.state.handles = true) :
    (runPass run 0).Ends h (fun _ => Attended Good limit) fun _ => Attended Good limit := by
  have hrest : Attended Good limit h := hP.subperm (List.sublist_cons_self ..).subperm
  obtain ⟨only, hT', hlimit⟩ := hP
  obtain ⟨-, rfl⟩ := hT'.eq_of_get? hT.get?_zero
  have halive : managerIsAlive h.state 0 = true := Bool.or_eq_true_iff.2 (.inl hT.named)
  unfold runPass holding
  simp only [ends_bind, ends_residents, halive, if_true]
  rw [ends_around]
  refine Ends.imp (ends_manage_attended (fun _ hP => hP) hrun
    (hT.subset (List.subset_cons_self ..)) (fun total htotal => ?_) hrest)
    (fun _ _ hP => hP) fun _ _ hP => hP
  have hlapsed := hlimit total htotal
  cases p with
  | now =>
    have hcount : immediatePasses (PostedPass.now.task seat.proxy 0 :: h.queued)
        = immediatePasses h.queued + 1 := List.countP_cons_of_pos rfl
    have hle := hlapsed.le
    rw [hcount] at hle
    show h.begun + _ + immediatePasses h.queued ≤ total
    split <;> omega
  | later handle =>
    -- its handle would have to be in the slot, which is empty
    have hposted : PostedPass.later handle ∈
        ((PostedPass.later handle).task seat.proxy 0 :: h.queued).filterMap Task.postedPass? :=
      List.mem_filterMap.2 ⟨_, List.mem_cons_self .., Task.postedPass?_task ..⟩
    have hheld := hT.tracks.live hposted (by simpa using hlive)
    cases hlapsed.delayed.symm.trans hheld

/-- **A task has its turn.** -/
theorem ends_runTask_attended {task : Task S} (hP : Tending Good limit (task :: h.queued) h) :
    (runTask run task).Ends h (fun _ => Attended Good limit) fun _ => Attended Good limit := by
  have hrest : Attended Good limit h := hP.subperm (List.sublist_cons_self ..).subperm
  obtain ⟨seat, hT, -⟩ := id hP
  cases hT.plain (List.mem_cons_self ..) with
  | scripted hgood =>
    unfold runTask
    simp only [ends_bind, ends_now, ends_emit]
    exact hrun _ hgood _ (hrest.emit rfl)
  | pass p =>
    unfold PostedPass.task
    rw [ends_runTask_proxied]
    split
    · cases p with
      | now =>
        rw [PostedPass.guardedTask, runTask]
        exact ends_posted_attended hrun hP hT rfl
      | later handle =>
        rw [PostedPass.guardedTask, runTask, ends_bind, ends_residents]
        cases hcanceled : h.state.handles.isCanceled handle with
        | true => exact hrest
        | false =>
          rw [if_neg Bool.false_ne_true, runTask]
          exact ends_posted_attended hrun hP hT (by simp [hcanceled])
    · next hshut =>
      -- the gate is shut, so the manager is shut down
      obtain ⟨only, hT', hlimit⟩ := hrest
      refine ⟨only, { hT' with gate := fun hup => ?_ }, hlimit⟩
      obtain ⟨-, rfl⟩ := hT'.eq_of_get? hT.get?_zero
      exact absurd (hT'.gate hup) hshut

/-- A task that is taken out of the queue still counts, until it has had its turn. -/
theorem ends_popped_attended (h : Host S) (task : Task S) (queue : TaskQueue (Task S))
    (hP : Attended Good limit h) (hpop : h.queue.popNext = some (task, queue)) :
    (runTask run task).Ends { h with queue } (fun _ => Attended Good limit)
      fun _ => Attended Good limit := by
  obtain ⟨q, rest, hpending, rfl, rfl⟩ := TaskQueue.popNext_eq_some.1 hpop
  refine ends_runTask_attended hrun ?_
  have hqueued : h.queued = q.task :: rest.map Pending.task := by
    unfold queued
    rw [hpending]
    rfl
  unfold Attended at hP
  rw [hqueued] at hP
  exact hP

end Tasks

end Passes

/-! ## Requests -/

section Requests

/-- Taking back what the runner refused. -/
theorem preserves_undoRequest_attended (number : Nat) (immediate : Bool) :
    (undoRequest number immediate : Act S Unit).Preserves (Attended Good none)
      (Attended Good none) := by
  rintro h ⟨seat, hT, -⟩
  unfold undoRequest
  simp only [ends_bind, ends_seat?]
  cases hfound : h.state.managers.get? number with
  | none => exact .unlimited ⟨seat, hT⟩
  | some found =>
    obtain ⟨rfl, rfl⟩ := hT.eq_of_get? hfound
    simp only [ends_bind, ends_residents, ends_keep]
    unfold Manager.refused
    cases immediate with
    | true => exact .unlimited ⟨_, hT.update id (hT.tracks.congr rfl) fun _ => hT.plain⟩
    | false => exact .unlimited ⟨_, hT.update id (hT.tracks.emptied _) fun _ => hT.plain⟩

/-- A pass that was asked for is posted: the manager and the handles are written by then, and the
pass is not in the queue yet. -/
theorem Tended.ends_posting {h : Host S} {seat : ManagerSeat S} {m : Manager} {handles : Handles}
    (hT : Tended Good h.state.proxies h.state.handles h.state.stubs h.state.managers h.queued seat)
    (hdown : m.shutDown = seat.manager.shutDown) (p : PostedPass)
    (htracks : m.Tracks handles (p :: h.queued.filterMap Task.postedPass?)) (delay : Nanos) :
    (postVia seat.proxy (p.guardedTask 0) delay : Act S Bool).Ends { h with
      state := { h.state with
        managers := h.state.managers.update 0 fun s => { s with manager := m }
        handles } } (fun _ => Attended Good none) fun _ => Attended Good none := by
  have hone : m.Tracks handles
      ((p.task seat.proxy 0 :: h.queued).filterMap Task.postedPass?) := by
    rw [List.filterMap_cons_some (Task.postedPass?_task seat.proxy 0 p)]
    exact htracks
  have hplain : ∀ task ∈ p.task seat.proxy 0 :: h.queued, IsPlain Good seat.proxy task := by
    intro task htask
    rcases List.mem_cons.1 htask with rfl | htask
    · exact .pass p
    · exact hT.plain htask
  exact ends_post_attended delay (.unlimited ⟨_, hT.update (hdown ▸ id) hone hplain⟩)

/-- **Asking for a pass.** -/
theorem preserves_schedule_attended (number : Nat) (immediate : Bool) :
    (schedule number immediate : Act S Unit).Preserves (Attended Good none)
      (Attended Good none) := by
  rintro h ⟨seat, hT, -⟩
  unfold schedule
  simp only [ends_bind, ends_seat?]
  cases hfound : h.state.managers.get? number with
  | none => exact .unlimited ⟨seat, hT⟩
  | some found =>
    obtain ⟨rfl, rfl⟩ := hT.eq_of_get? hfound
    cases hrequest : found.manager.request immediate h.state.handles with
    | mk request rest =>
      obtain ⟨m, handles⟩ := rest
      simp only [ends_bind, ends_residents, hrequest, ends_keep]
      have hdown : m.shutDown = found.manager.shutDown := by
        have hkept := Manager.shutDown_request found.manager immediate h.state.handles
        rwa [hrequest] at hkept
      have htracks := hT.tracks.request hrequest
      have hundo (accepted undone : Bool) : (do
          unless accepted do undoRequest 0 undone : Act S PUnit).Preserves (Attended Good none)
            (Attended Good none) := by
        cases accepted
        · exact preserves_undoRequest_attended 0 undone
        · exact .pure _
      cases request with
      | covered => exact .unlimited ⟨_, hT.update (hdown ▸ id) htracks fun _ => hT.plain⟩
      | postNow =>
        rw [ends_bind]
        exact (hT.ends_posting hdown .now htracks 0).imp
          (fun accepted h' hP => hundo accepted true h' hP) fun _ _ hP => hP
      | postDelayed handle =>
        rw [ends_bind]
        exact (hT.ends_posting hdown (.later handle) htracks m.delay).imp
          (fun accepted h' hP => hundo accepted false h' hP) fun _ _ hP => hP

theorem preserves_setWindows_attended (number : Nat) (windows : Option Nat) :
    (setWindows number windows : Act S Unit).Preserves (Attended Good none)
      (Attended Good none) := by
  refine (preserves_seat? number).bind fun found => ?_
  cases found with
  | none => exact .pure _
  | some seat =>
    dsimp only
    split
    · exact .pure _
    · exact (preserves_changeManager_attended number fun _ => by exact ⟨rfl, rfl, rfl⟩).bind
        fun _ => preserves_schedule_attended number true

/-- A report may ask for a pass. -/
theorem preserves_reportGroup_attended (number : Nat) (id : GroupId) (old new : Nat) :
    (reportGroup number id old new : Act S Unit).Preserves (Attended Good none)
      (Attended Good none) := by
  refine (preserves_requireThread (fun _ hP => hP) _).bind fun _ => fun h hP => ?_
  simp only [ends_bind, ends_seat?]
  cases hfound : h.state.managers.get? number with
  | none => exact hP
  | some found =>
    have hsame := sameRequests_report found.manager id old new
    obtain ⟨seat, hT, -⟩ := hP
    obtain ⟨rfl, rfl⟩ := hT.eq_of_get? hfound
    have hreported : Attended Good none { h with state := { h.state with
        managers := h.state.managers.update 0 fun s =>
          { s with manager := (found.manager.report id old new).2 } } } :=
      .unlimited ⟨_, hT.update (hsame.shutDown ▸ fun hup => hup) (hT.tracks.congr hsame.delayed)
        fun _ => hT.plain⟩
    refine Preserves.bind (.ofExcept (fun _ hP => hP) _) (fun calls => ?_) _ hreported
    split
    · exact preserves_schedule_attended 0 false
    · exact .pure _

theorem preserves_reportHandle_attended (handle : GroupHandle) (old new : Nat) :
    (reportHandle handle old new : Act S Unit).Preserves (Attended Good none)
      (Attended Good none) := by
  refine preserves_residents.bind fun r => ?_
  split
  · exact preserves_reportGroup_attended _ _ old new
  · exact .pure _

end Requests

/-! ## The end, and tracking groups -/

/-- **Shutting the manager down.** If this is halted, its gate may still be open. -/
theorem preserves_shutdownManager_attended (number : Nat) :
    (shutdownManager number : Act S Unit).Preserves (Attended Good limit)
      (Attended Good limit) := by
  intro h hP
  unfold shutdownManager
  simp only [ends_bind, ends_seat?]
  cases hfound : h.state.managers.get? number with
  | none => exact hP
  | some found =>
    obtain ⟨seat, hT, hlimit⟩ := id hP
    obtain ⟨rfl, rfl⟩ := hT.eq_of_get? hfound
    dsimp only
    split
    · exact hP
    · simp only [ends_bind, ends_residents, ends_keep]
      have hcurrent : ({ found.manager with shutDown := true }.clearWaiting
          h.state.handles).1.delayed.current = none :=
        Slot.current_cancel found.manager.delayed h.state.handles
      have hshut (proxies : Roster Proxy) : Attended Good limit { h with state := { h.state with
          managers := h.state.managers.update 0 fun s => { s with
            manager := ({ found.manager with shutDown := true }.clearWaiting h.state.handles).1 }
          handles := ({ found.manager with shutDown := true }.clearWaiting h.state.handles).2
          proxies } } :=
        ⟨_, hT.shutDown proxies, fun total htotal => ⟨rfl, hcurrent, (hlimit total htotal).le⟩⟩
      unfold shutdownProxy
      rw [ends_bind, ends_residents]
      dsimp only
      split
      · exact hshut _
      · simp only [ends_bind, ends_change, ends_ofExcept]
        split <;> exact hshut _

theorem preserves_addGroup_attended (number pid : Nat) :
    (addGroup number pid : Act S (Option GroupId)).Preserves (Attended Good limit)
      (Attended Good limit) := by
  refine (preserves_requireThread (fun _ hP => hP) _).bind fun _ =>
    (preserves_seat? number).bind fun found => ?_
  cases found with
  | none => exact .pure _
  | some seat =>
    refine (Preserves.ofExcept (fun _ hP => hP) _).bind fun opened => ?_
    exact (preserves_changeManager_attended number fun _ => by exact ⟨rfl, rfl, rfl⟩).bind
      fun _ => .pure _

theorem preserves_removeGroup_attended (number : Nat) (id : GroupId) :
    (removeGroup number id : Act S Unit).Preserves (Attended Good limit)
      (Attended Good limit) :=
  (preserves_requireThread (fun _ hP => hP) _).bind fun _ =>
    preserves_changeManager_attended number fun _ => ⟨rfl, rfl, rfl⟩

theorem preserves_releaseHandle_attended (handle : GroupHandle) :
    (releaseHandle handle : Act S Unit).Preserves (Attended Good limit)
      (Attended Good limit) := by
  refine preserves_residents.bind fun r => ?_
  split
  · exact preserves_removeGroup_attended _ _
  · exact .pure _

end Host

end Compositor
