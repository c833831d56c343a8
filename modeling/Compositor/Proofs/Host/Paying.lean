import Compositor.Proofs.Host.Promptness
import Compositor.Proofs.Host.Requesting

/-!
# Paying debts

Whatever is asked of the only manager, and whatever the queue is pumped for, the manager stays
prompt. A request adds its debt to those that there are. A pump that has come to its end has
run all that was due by its deadline, so the debts that were due by then are paid or the
manager is shut down.
-/

namespace Compositor.Host

open Compositor.Action

variable {S : Type} {Good : S → Prop} {debts : Nat → Nanos → Prop} {now : Nanos}
  {run : S → Act S Unit} {h : Host S} {seat : ManagerSeat S}

/-! ## What leaves requests alone -/

/-- What holds with one debt more holds without it. -/
theorem Prompting.forget {n : Nat} {deadline : Nanos}
    (hP : Prompting Good (incur debts n deadline) now h) : Prompting Good debts now h := by
  obtain ⟨hnow, seat, hP⟩ := hP
  exact ⟨hnow, seat, { hP with
    counted := fun hdebt => hP.counted (.inl hdebt)
    owed := fun hdebt => hP.owed (.inl hdebt) }⟩

/-- Nobody but the only manager can be asked. -/
theorem Prompting.get?_succ (hP : Prompting Good debts now h) (number : Nat) :
    h.state.managers.get? (number + 1) = none := by
  obtain ⟨-, seat, hP⟩ := hP
  exact Roster.get?_succ_of_sole hP.sole number

/-- An event that is not the start of a pass. -/
theorem Prompting.emit (hP : Prompting Good debts now h) {e : Event S}
    (he : e.isEnumerate = false) :
    Prompting Good debts now
      { h with state := { h.state with events := e :: h.state.events } } := by
  obtain ⟨hnow, seat, hP⟩ := hP
  have hbegun : begun { h with state := { h.state with events := e :: h.state.events } }
      = h.begun :=
    List.countP_cons_of_neg (by rw [he]; exact Bool.false_ne_true)
  refine ⟨hnow, seat, ?_⟩
  rw [hbegun]
  exact hP

/-- A change of a seat that leaves its proxy and the requests and the pace of its manager
alone, and its owner with a good script. -/
theorem Prompting.update (hP : Prompting Good debts now h) (number : Nat)
    {f : ManagerSeat S → ManagerSeat S}
    (hproxy : ∀ seat : ManagerSeat S, (f seat).proxy = seat.proxy)
    (hsame : ∀ seat : ManagerSeat S, seat.manager.SamePace (f seat).manager)
    (howner : ∀ seat : ManagerSeat S,
      Good seat.owner.onEnumerate → Good (f seat).owner.onEnumerate) :
    Prompting Good debts now { h with state := { h.state with
      managers := h.state.managers.update number f } } := by
  obtain ⟨hnow, seat, hP⟩ := hP
  cases number with
  | zero => exact ⟨hnow, f seat, hP.congr (hproxy seat) (hsame seat) (howner seat hP.onEnumerate)⟩
  | succ number =>
    have hupdate := Roster.update_succ_of_sole hP.sole number f
    exact ⟨hnow, seat, hupdate.symm ▸ hP⟩

theorem keeps_changeManager_samePace (number : Nat) {f : Manager → Manager}
    (hf : ∀ m, Manager.SamePace m (f m)) :
    (changeManager number f).Keeps (Prompting Good debts now : Host S → Prop) :=
  fun _ hP => hP.update number (fun _ => rfl) (fun seat => hf seat.manager) fun _ => id

/-- A good script may be posted. -/
theorem keeps_post_prompting (label : String) {script : S} (hgood : Good script)
    (delay : Nanos) :
    (EventLoop.post (.scripted label script) delay : Act S Bool).Keeps
      (Prompting Good debts now) := by
  rintro h ⟨hnow, seat, hP⟩
  exact ends_post_accepting hP.accepting ⟨hnow, seat, hP.post (.scripted hgood) delay⟩

/-! ## Passes -/

theorem passStable_prompting
    (hrun : ∀ script, Good script → (run script).Keeps (Prompting Good debts now)) :
    PassStable run Good (Prompting Good debts now) where
  emit he _ _ := fun _ hP => hP.emit he
  run := hrun _
  onEnumerate := by
    rintro h number seat ⟨-, only, hP⟩ hseat
    obtain ⟨-, rfl⟩ := hP.eq_of_get? hseat
    exact hP.onEnumerate
  onRequest := by
    rintro h id stub ⟨-, seat, hP⟩ hstub
    exact (hP.stubs (List.mem_of_getElem? hstub)).1
  onGrant := by
    rintro h id stub ⟨-, seat, hP⟩ hstub
    exact (hP.stubs (List.mem_of_getElem? hstub)).2
  grant id allocation := by
    rintro h ⟨hnow, seat, hP⟩
    have hstubs := Roster.forall_mem_update id (f := fun s : StubRecord S =>
      { s with allocation }) (fun _ => hP.stubs) fun _ hgood => hgood
    exact ⟨hnow, seat, { hP with stubs := fun hstub => hstubs _ hstub }⟩
  count number := keeps_changeManager_samePace number fun _ => ⟨⟨rfl, rfl, rfl⟩, rfl⟩
  publish {_ number _} hP _ _ b _ plan _ :=
    keeps_changeManager_samePace number (f := fun m => m.publish b.total plan)
      (fun _ => ⟨⟨rfl, rfl, rfl⟩, rfl⟩) _ hP

/-- **A pass starts**, and all debts are paid; or the manager is shut down, and nothing is owed.
The queue may have lost a task to it. -/
theorem ends_manage_prompting {queue : TaskQueue (Task S)}
    (hrun : ∀ script, Good script → (run script).Keeps (Prompting Good debts h.queue.now))
    (hP : Prompt Good debts h.state.proxies h.state.handles h.state.stubs h.state.managers queue
      h.begun seat)
    (haccepting : h.queue.accepting = true) (hinTime : h.queue.InTime)
    (hsub : ∀ q ∈ h.queue.pending, q ∈ queue.pending) :
    (manage run 0).Ends h (fun _ => Prompting Good debts h.queue.now) fun _ _ => True := by
  refine (passStable_prompting hrun).manage hP.get?_zero (fun hdown => ?_) fun _ => ?_
  · exact ⟨rfl, _, hP.clear haccepting hinTime hsub (Nat.le_refl _) fun hup =>
      absurd (hdown.symm.trans hup) Bool.noConfusion⟩
  · -- the observer has seen one pass more
    have hbegun : begun (started h 0 seat) = h.begun + 1 := List.countP_cons_of_pos rfl
    refine ⟨rfl, { seat with manager := (seat.manager.clearWaiting h.state.handles).1 }, ?_⟩
    rw [hbegun]
    exact hP.clear haccepting hinTime hsub (Nat.le_succ _) fun _ => Nat.lt_succ_self _

theorem keeps_manage_prompting
    (hrun : ∀ script, Good script → (run script).Keeps (Prompting Good debts now))
    (number : Nat) : (manage run number).Keeps (Prompting Good debts now) := by
  intro h hP
  cases number with
  | zero =>
    obtain ⟨rfl, seat, hP⟩ := hP
    exact ends_manage_prompting hrun hP hP.accepting hP.inTime fun _ => id
  | succ number =>
    unfold manage
    simp only [ends_bind, ends_requireThread]
    split
    · rw [ends_seat?, hP.get?_succ number]
      exact hP
    · trivial

/-! ## Turns -/

/-- **A task has its turn.** A pass that is not live, or that comes after the end, is none that
is waited for; a live one starts a pass. -/
theorem ends_runTask_prompting
    (hrun : ∀ now script, Good script → (run script).Keeps (Prompting Good debts now))
    {q : Pending (Task S)} {rest : List (Pending (Task S))} (hP : Prompting Good debts now h)
    (hpending : h.queue.pending = q :: rest) :
    (runTask run q.task).Ends { h with queue := h.queue.without q rest }
      (fun _ => Prompting Good debts (max now q.due)) fun _ _ => True := by
  obtain ⟨rfl, seat, hP⟩ := hP
  have hplain := hP.plain (hpending ▸ List.mem_cons_self ..)
  generalize htask : q.task = task at hplain ⊢
  cases hplain with
  | @scripted label script hgood =>
    have hpopped : Prompting Good debts (max h.queue.now q.due)
        { h with queue := h.queue.without q rest } := by
      refine ⟨rfl, seat, hP.pop hpending fun _ p _ heq => ?_⟩
      rw [htask] at heq
      cases p <;> cases heq
    unfold runTask
    simp only [ends_bind, ends_now, ends_emit]
    exact hrun _ script hgood _ (hpopped.emit rfl)
  | pass p =>
    obtain ⟨gate, hgate, hshut⟩ := Option.map_eq_some_iff.1 hP.gate
    have hgate' : { h with queue := h.queue.without q rest }.state.proxies.get? seat.proxy
        = some gate := hgate
    rw [ends_runTask_task hgate', hshut]
    split
    · next hdown =>
      exact ⟨rfl, seat, (hP.pop hpending fun hup => absurd (hdown.symm.trans hup)
        Bool.noConfusion).drop⟩
    · split
      · next hlive =>
        have halive : managerIsAlive h.state 0 = true := Bool.or_eq_true_iff.2 (.inl hP.named)
        unfold runPass
        simp only [ends_bind, ends_residents, halive, if_true]
        unfold holding
        rw [ends_around]
        exact ends_manage_prompting (hrun _) hP hP.accepting (hP.inTime.without hpending)
          fun _ hr => hpending ▸ List.mem_cons_of_mem _ hr
      · next hdead =>
        refine ⟨rfl, seat, hP.pop hpending fun _ p' hp' heq => hdead ?_⟩
        obtain rfl := PostedPass.eq_of_task_eq (htask.symm.trans heq)
        exact hP.isLive_of_awaited hp'

/-! ## Pumps -/

section Pumps

variable (hrun : ∀ now script, Good script → (run script).Keeps (Prompting Good debts now))

include hrun

/-- **Running what is due** keeps the manager prompt, and takes the clock to the deadline at
most; when it is done, nothing is due by then any more. -/
theorem settles_runDue_prompting {deadline : Nanos} (fuel : Nat)
    (hP : Prompting Good debts now h) (hle : now ≤ deadline) :
    (EventLoop.runDue (runTask run) deadline fuel).Ends h
      (fun _ h' => (∃ now', now ≤ now' ∧ now' ≤ deadline ∧ Prompting Good debts now' h') ∧
        h'.queue.popDue deadline = none)
      fun _ _ => True := by
  refine EventLoop.settles_runDue (P := fun h => ∃ now', now ≤ now' ∧ now' ≤ deadline ∧
    Prompting Good debts now' h) deadline (fun l task queue => ?_) fuel
    ⟨now, Nat.le_refl _, hle, hP⟩
  rintro ⟨now', hge, hle', hP'⟩ hpop
  obtain ⟨q, rest, hpending, hdue, rfl, rfl⟩ := TaskQueue.popDue_eq_some.1 hpop
  exact (ends_runTask_prompting hrun hP' hpending).imp (fun _ h' hP'' => ⟨max now' q.due,
    Nat.le_trans hge (Nat.le_max_left ..), Nat.max_le.2 ⟨hle', hdue⟩, hP''⟩) fun _ _ _ => trivial

/-- Running what is due now does not move the clock. -/
theorem settles_runUntilIdle (fuel : Nat) (hP : Prompting Good debts now h) :
    (EventLoop.runUntilIdle (runTask run) fuel).Ends h
      (fun _ h' => Prompting Good debts now h' ∧ h'.queue.popDue now = none) fun _ _ => True := by
  unfold EventLoop.runUntilIdle
  rw [ends_bind, ends_get, hP.1]
  refine (settles_runDue_prompting hrun fuel hP (Nat.le_refl now)).imp (fun _ h' hsettled => ?_)
    fun _ _ _ => trivial
  obtain ⟨⟨now', hge, hle, hP'⟩, hnone⟩ := hsettled
  obtain rfl := Nat.le_antisymm hge hle
  exact ⟨hP', hnone⟩

/-- Advancing takes the clock ahead by a span, and leaves nothing that is due by then. -/
theorem settles_advance (fuel : Nat) (span : Nanos) (hP : Prompting Good debts now h) :
    (EventLoop.advance (runTask run) fuel span).Ends h
      (fun _ h' => Prompting Good debts (now + span) h' ∧ h'.queue.popDue (now + span) = none)
      fun _ _ => True := by
  unfold EventLoop.advance
  simp only [ends_bind, ends_get, ends_ofExcept, hP.1]
  cases htarget : Nanos.add now span with
  | error f => trivial
  | ok target =>
    obtain ⟨rfl, -⟩ := Nanos.add_eq_ok.1 htarget
    refine (settles_runDue_prompting hrun fuel hP (Nat.le_add_right ..)).imp
      (fun _ h' hsettled => ?_) fun _ _ _ => trivial
    obtain ⟨⟨now', -, hle, rfl, seat, hP'⟩, hnone⟩ := hsettled
    have hwaits {deadline deadline' : Nanos} {p : PostedPass}
        (hp : WaitsBy h'.queue seat.proxy deadline p) (hle : deadline ≤ deadline') :
        WaitsBy { h'.queue with now := now + span } seat.proxy deadline' p := hp.mono hle
    refine ⟨⟨rfl, seat, { hP' with
      inTime := hP'.inTime.moved hnone
      waiting := fun hup _ hp => hwaits (hP'.waiting hup hp) (Nat.add_le_add_right hle _)
      owed := fun hdebt hunpaid hup => ?_ }⟩, ?_⟩
    · obtain ⟨p, hp, hby⟩ := hP'.owed hdebt hunpaid hup
      exact ⟨p, hp, hwaits hby (Nat.le_refl _)⟩
    · rw [TaskQueue.popDue_eq_none] at hnone ⊢
      exact hnone

/-- Running the next task may take the clock ahead. -/
theorem ends_runNext_prompting (hP : Prompting Good debts now h) :
    (EventLoop.runNext (runTask run)).Ends h
      (fun _ h' => ∃ now', now ≤ now' ∧ Prompting Good debts now' h') fun _ _ => True := by
  unfold EventLoop.runNext
  simp only [ends_bind, ends_get]
  cases hpop : h.queue.popNext with
  | none => exact ⟨now, Nat.le_refl _, hP⟩
  | some popped =>
    obtain ⟨task, queue⟩ := popped
    obtain ⟨q, rest, hpending, rfl, rfl⟩ := TaskQueue.popNext_eq_some.1 hpop
    simp only [ends_bind, ends_modify]
    exact (ends_runTask_prompting hrun hP hpending).imp
      (fun _ h' hP' => ⟨max now q.due, Nat.le_max_left .., hP'⟩) fun _ _ _ => trivial

end Pumps

/-! ## Requests -/

/-- A post that the runner accepts does not have to be undone. -/
theorem ends_postVia_accepted {proxy : Nat} {task : Task S} {delay : Nanos} {undo : Act S Unit}
    {Q : Unit → Host S → Prop} (haccepting : h.queue.accepting = true)
    (hQ : Q () { h with queue := h.queue.accept (.proxied proxy task) delay }) :
    (do unless ← postVia proxy task delay do undo : Act S Unit).Ends h Q fun _ _ => True := by
  rw [ends_bind]
  exact ends_post_accepting haccepting hQ

/-- **A request adds its debt** to those that there are: one more pass has to start, at once or
after the manager's delay. -/
theorem ends_schedule_prompting (hseat : h.state.managers.get? 0 = some seat)
    (hP : Prompting Good debts now h) (immediate : Bool) :
    (schedule 0 immediate).Ends h
      (fun _ => Prompting Good
        (incur debts h.begun (now + if immediate then 0 else seat.manager.delay)) now)
      fun _ _ => True := by
  obtain ⟨rfl, only, hP⟩ := hP
  obtain ⟨-, rfl⟩ := hP.eq_of_get? hseat
  unfold schedule
  simp only [ends_bind, ends_seat?, hseat]
  cases hrequest : seat.manager.request immediate h.state.handles with
  | mk request rest =>
    obtain ⟨m, handles⟩ := rest
    simp only [ends_residents, hrequest, ends_keep]
    rcases Manager.request_cases hrequest with
      ⟨rfl, rfl, rfl, hcovered⟩ | ⟨rfl, rfl, hup, -, hm, rfl⟩ |
      ⟨rfl, rfl, hup, himmediate, hpending, hm, rfl⟩
    · refine ⟨rfl, seat, (hP.covered hcovered).congr ?_ ⟨⟨rfl, rfl, rfl⟩, rfl⟩ hP.onEnumerate⟩
      rfl
    · exact ends_postVia_accepted hP.accepting ⟨rfl, _, hP.postNow hup hm⟩
    · have hfree : seat.manager.delayed.current = none := by
        unfold Slot.isPending at hpending
        split at hpending
        · assumption
        · next handle hheld =>
          rw [(hP.held hheld).2] at hpending
          cases hpending
      -- the slot is empty, so nothing is canceled to fill it
      have hcancel : (seat.manager.delayed.cancel h.state.handles.issue.2).2
          = h.state.handles.issue.2 := by
        unfold Slot.cancel
        rw [hfree]
      have hdelay : m.delay = seat.manager.delay := by rw [hm]
      rw [hcancel, hdelay]
      exact ends_postVia_accepted hP.accepting ⟨rfl, _, hP.postDelayed hup himmediate hfree hm⟩

theorem keeps_schedule_prompting (number : Nat) (immediate : Bool) :
    (schedule number immediate).Keeps (Prompting Good debts now : Host S → Prop) := by
  intro h hP
  cases number with
  | zero =>
    obtain ⟨seat, hseat⟩ : ∃ seat, h.state.managers.get? 0 = some seat := by
      obtain ⟨-, seat, hP⟩ := hP
      exact ⟨seat, hP.get?_zero⟩
    exact (ends_schedule_prompting hseat hP immediate).imp (fun _ _ hP' => hP'.forget)
      fun _ _ _ => trivial
  | succ number =>
    unfold schedule
    rw [ends_bind, ends_seat?, hP.get?_succ number]
    exact hP

/-- **A change of the number of windows asks for a pass** at once. -/
theorem ends_setWindows_prompting (hseat : h.state.managers.get? 0 = some seat)
    (hP : Prompting Good debts now h) {windows : Option Nat}
    (hchanges : seat.manager.windows ≠ Manager.normalWindows windows) :
    (setWindows 0 windows).Ends h (fun _ => Prompting Good (incur debts h.begun now) now)
      fun _ _ => True := by
  have hseat' : (h.state.managers.update 0 fun s =>
      { s with manager := { s.manager with windows := Manager.normalWindows windows } }).get? 0
        = some { seat with manager :=
          { seat.manager with windows := Manager.normalWindows windows } } :=
    Roster.get?_update_of_some hseat _
  have hP' := hP.update 0
    (f := fun s => { s with manager :=
      { s.manager with windows := Manager.normalWindows windows } })
    (fun _ => rfl) (fun _ => ⟨⟨rfl, rfl, rfl⟩, rfl⟩) fun _ => id
  unfold setWindows
  rw [ends_bind, ends_seat?, hseat]
  dsimp only
  rw [if_neg hchanges, ends_bind, ends_changeManager]
  exact ends_schedule_prompting hseat' hP' true

theorem keeps_setWindows_prompting (number : Nat) (windows : Option Nat) :
    (setWindows number windows).Keeps (Prompting Good debts now : Host S → Prop) := by
  refine (keeps_seat? number).bind fun found => ?_
  cases found with
  | none => exact .pure _
  | some seat =>
    dsimp only
    split
    · exact .pure _
    · exact (keeps_changeManager_samePace number fun _ => by exact ⟨⟨rfl, rfl, rfl⟩, rfl⟩).bind
        fun _ => keeps_schedule_prompting number true

/-- **Shutting the manager down.** Off the runner's thread this faults. -/
theorem keeps_shutdownManager_prompting (number : Nat) :
    (shutdownManager number).Keeps (Prompting Good debts now : Host S → Prop) := by
  intro h hP
  unfold shutdownManager
  rw [ends_bind, ends_seat?]
  cases number with
  | succ number =>
    rw [hP.get?_succ number]
    exact hP
  | zero =>
    obtain ⟨rfl, seat, hP⟩ := hP
    rw [hP.get?_zero]
    dsimp only
    split
    · exact ⟨rfl, seat, hP⟩
    · next hup =>
      obtain ⟨gate, hgate, hopen⟩ := Option.map_eq_some_iff.1 hP.gate
      have hopen : gate.shutDown = false := by rw [hopen]; simpa using hup
      simp only [ends_bind, ends_residents, ends_keep]
      unfold shutdownProxy
      simp only [ends_bind, ends_residents, hgate, ends_change, ends_ofExcept]
      unfold Proxy.shutdown
      rw [hopen]
      cases h.state.onThread with
      | false => trivial
      | true => exact ⟨rfl, _, hP.shutDown hgate⟩

/-! ## Tracking groups -/

theorem keeps_addGroup_prompting (number pid : Nat) :
    (addGroup number pid).Keeps (Prompting Good debts now : Host S → Prop) := by
  refine (keeps_requireThread _).bind fun _ => (keeps_seat? number).bind fun found => ?_
  cases found with
  | none => exact .pure _
  | some seat =>
    refine (Keeps.ofExcept _).bind fun opened => ?_
    exact (keeps_changeManager_samePace number fun _ => by exact ⟨⟨rfl, rfl, rfl⟩, rfl⟩).bind
      fun _ => .pure _

theorem keeps_removeGroup_prompting (number : Nat) (id : GroupId) :
    (removeGroup number id).Keeps (Prompting Good debts now : Host S → Prop) :=
  (keeps_requireThread _).bind fun _ =>
    keeps_changeManager_samePace number fun _ => ⟨⟨rfl, rfl, rfl⟩, rfl⟩

theorem keeps_releaseHandle_prompting (handle : GroupHandle) :
    (releaseHandle handle).Keeps (Prompting Good debts now : Host S → Prop) := by
  refine keeps_residents.bind fun r => ?_
  split
  · exact keeps_removeGroup_prompting _ _
  · exact .pure _

/-- A report leaves the requests and the pace of a manager alone. -/
theorem samePace_report (m : Manager) (id : GroupId) (old new : Nat) :
    m.SamePace (m.report id old new).2 := by
  refine ⟨sameRequests_report m id old new, ?_⟩
  unfold Manager.report
  dsimp only
  split
  · rfl
  · split <;> rfl

/-- A report of a group that is open calls for a pass if the group grew, and all groups
together hold more than there is; else it faults. -/
theorem report_calls {m : Manager} {id : GroupId} {old new size : Nat}
    (hopen : m.ledger.size? id = some size) (hgrew : old < new)
    (hover : m.available < (m.ledger.report id old new).2.current) :
    (∃ f, (m.report id old new).1 = .error f) ∨ (m.report id old new).1 = .ok true := by
  obtain ⟨record, hrecord, -⟩ := Option.map_eq_some_iff.1 hopen
  unfold Manager.report
  dsimp only
  split
  · next f _ => exact .inl ⟨f, rfl⟩
  · next known hknown =>
    have hknown : known = true := by
      unfold Ledger.report at hknown
      rw [hrecord] at hknown
      dsimp only at hknown
      split at hknown
      · cases hknown
      · split at hknown
        · cases hknown
        · split at hknown <;> cases hknown
          rfl
    right
    simp [hknown, hgrew, hover]

/-- The manager as a report leaves it, before it asks for anything. -/
theorem prompting_report (hP : Prompting Good debts now h)
    (hseat : h.state.managers.get? 0 = some seat) (id : GroupId) (old new : Nat) :
    Prompting Good debts now { h with state := { h.state with
      managers := h.state.managers.update 0 fun s =>
        { s with manager := (seat.manager.report id old new).2 } } } := by
  obtain ⟨hnow, only, hP⟩ := hP
  obtain ⟨-, rfl⟩ := hP.eq_of_get? hseat
  exact ⟨hnow, _, hP.congr (f := fun s =>
    { s with manager := (seat.manager.report id old new).2 }) rfl
    (samePace_report _ id old new) hP.onEnumerate⟩

/-- **A report of growth beyond the total asks for a pass**, after the delay. -/
theorem ends_reportGroup_prompting (hseat : h.state.managers.get? 0 = some seat)
    (hP : Prompting Good debts now h) {id : GroupId} {old new size : Nat}
    (hopen : seat.manager.ledger.size? id = some size) (hgrew : old < new)
    (hover : seat.manager.available < (seat.manager.ledger.report id old new).2.current) :
    (reportGroup 0 id old new).Ends h
      (fun _ => Prompting Good (incur debts h.begun (now + seat.manager.delay)) now)
      fun _ _ => True := by
  have hseat' : (h.state.managers.update 0 fun s =>
      { s with manager := (seat.manager.report id old new).2 }).get? 0
        = some { seat with manager := (seat.manager.report id old new).2 } :=
    Roster.get?_update_of_some hseat _
  have hP' := prompting_report hP hseat id old new
  unfold reportGroup
  rw [ends_bind, ends_requireThread]
  split
  · rw [ends_bind, ends_seat?, hseat]
    simp only [ends_bind, ends_changeManager, ends_ofExcept]
    rcases report_calls hopen hgrew hover with ⟨f, hfault⟩ | hcalls
    · rw [hfault]
      trivial
    · rw [hcalls, ← (samePace_report seat.manager id old new).delay]
      exact ends_schedule_prompting hseat' hP' false
  · trivial

theorem keeps_reportGroup_prompting (number : Nat) (id : GroupId) (old new : Nat) :
    (reportGroup number id old new).Keeps (Prompting Good debts now : Host S → Prop) := by
  refine (keeps_requireThread _).bind fun _ => ?_
  intro h hP
  rw [ends_bind, ends_seat?]
  cases number with
  | succ number =>
    rw [hP.get?_succ number]
    exact hP
  | zero =>
    obtain ⟨seat, hseat⟩ : ∃ seat, h.state.managers.get? 0 = some seat := by
      obtain ⟨-, seat, hP⟩ := hP
      exact ⟨seat, hP.get?_zero⟩
    rw [hseat]
    refine Keeps.bind (Keeps.ofExcept _) (fun calls => ?_) _ (prompting_report hP hseat id old new)
    split
    · exact keeps_schedule_prompting 0 false
    · exact .pure _

theorem keeps_reportHandle_prompting (handle : GroupHandle) (old new : Nat) :
    (reportHandle handle old new).Keeps (Prompting Good debts now : Host S → Prop) := by
  refine keeps_residents.bind fun r => ?_
  split
  · exact keeps_reportGroup_prompting _ _ old new
  · exact .pure _

end Compositor.Host
