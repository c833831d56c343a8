import Compositor.Proofs.Host.Coalescing
import Compositor.Proofs.Task.Queue

/-!
# Passes that are owed

A request for a pass may be dropped, because one is waiting that serves as well; it may be
taken down, because an immediate one takes its place or because a pass starts. None of this
loses it. A request makes a *debt*: beyond the passes that have started one more has to
start, and by a deadline – at once if the request is immediate, after the manager's delay if
not. As long as the debt is not paid and the manager is not shut down, a pass that the manager
waits for is in the queue, and due by the deadline of the debt.

This survives the turns of the queue, since a task that is taken out is a dead pass, or a
live one that pays all debts, or no pass at all; and it survives requests, since an immediate
one is due now, which no task in the queue can beat. What it needs is a clock that only goes
ahead: callbacks may pump the queue as far as it is due, but not move the clock.

Passes that were started by hand may leave immediate passes in the queue that nobody waits
for any more. They pay debts as others do.
-/

namespace Compositor

/-- How long a pass waits once it was posted. -/
def PostedPass.patience (delay : Nanos) : PostedPass → Nanos
  | .now => 0
  | .later _ => delay

/-- Passes are told apart by their tasks. -/
theorem PostedPass.eq_of_task_eq {S : Type} {proxy manager : Nat} {p p' : PostedPass}
    (h : (p.task proxy manager : Task S) = p'.task proxy manager) : p = p' := by
  have hpass := congrArg Task.postedPass? h
  rw [Task.postedPass?_task, Task.postedPass?_task] at hpass
  exact Option.some.inj hpass

/-- Two managers are asked for the same, and let a delayed pass wait as long. -/
structure Manager.SamePace (m m' : Manager) : Prop extends Manager.SameRequests m m' where
  delay : m'.delay = m.delay

namespace Host

open Compositor.Action

variable {S : Type}

/-- A pass of the only manager is in a queue, and due by a deadline. -/
def WaitsBy (queue : TaskQueue (Task S)) (proxy : Nat) (deadline : Nanos) (p : PostedPass) :
    Prop :=
  ∃ q ∈ queue.pending, q.task = p.task proxy 0 ∧ q.due ≤ deadline

/-- **The only manager is prompt**: each pass that it waits for is in the queue, and due when
it should be, and for each debt that is not paid there is one that is due by its deadline. A
debt is a number of passes, beyond which one has to start, and a deadline. -/
structure Prompt (Good : S → Prop) (debts : Nat → Nanos → Prop) (proxies : Roster Proxy)
    (handles : Handles) (stubs : Roster (StubRecord S)) (managers : Roster (ManagerSeat S))
    (queue : TaskQueue (Task S)) (begun : Nat) (seat : ManagerSeat S) : Prop where
  sole : managers.members = [seat]
  named : managers.isNamed 0 = true
  gate : (proxies.get? seat.proxy).map Proxy.shutDown = some seat.manager.shutDown
  accepting : queue.accepting = true
  inTime : queue.InTime
  plain {q : Pending (Task S)} (hq : q ∈ queue.pending) : IsPlain Good seat.proxy q.task
  onEnumerate : Good seat.owner.onEnumerate
  stubs {stub : StubRecord S} (hstub : stub ∈ stubs.members) :
    Good stub.onRequest ∧ Good stub.onGrant
  canceled {handle : Handle} (hcanceled : handles.isCanceled handle = true) :
    handle < handles.issued
  held {handle : Handle} (hheld : seat.manager.delayed.current = some handle) :
    handle < handles.issued ∧ handles.isCanceled handle = false
  waiting (hup : seat.manager.shutDown = false) {p : PostedPass} (hp : p ∈ seat.manager.awaited) :
    WaitsBy queue seat.proxy (queue.now + p.patience seat.manager.delay) p
  counted {n : Nat} {deadline : Nanos} (hdebt : debts n deadline) : n ≤ begun
  owed {n : Nat} {deadline : Nanos} (hdebt : debts n deadline) (hunpaid : begun = n)
    (hup : seat.manager.shutDown = false) :
    ∃ p ∈ seat.manager.awaited, WaitsBy queue seat.proxy deadline p

/-- The only manager of a host is prompt, and the clock reads a time. -/
def Prompting (Good : S → Prop) (debts : Nat → Nanos → Prop) (now : Nanos) (h : Host S) : Prop :=
  h.queue.now = now ∧ ∃ seat, Prompt Good debts h.state.proxies h.state.handles h.state.stubs
    h.state.managers h.queue h.begun seat

/-- The only manager of a host is prompt, and the clock reads a time no earlier than some. -/
def PromptingFrom (Good : S → Prop) (debts : Nat → Nanos → Prop) (since : Nanos) (h : Host S) :
    Prop :=
  ∃ now, since ≤ now ∧ Prompting Good debts now h

/-- The debts together with one more. -/
def incur (debts : Nat → Nanos → Prop) (n : Nat) (deadline : Nanos) : Nat → Nanos → Prop :=
  fun n' deadline' => debts n' deadline' ∨ (n' = n ∧ deadline' = deadline)

variable {Good : S → Prop} {debts : Nat → Nanos → Prop} {proxies : Roster Proxy}
  {handles : Handles} {stubs : Roster (StubRecord S)} {managers : Roster (ManagerSeat S)}
  {queue : TaskQueue (Task S)} {begun : Nat} {seat : ManagerSeat S} {now : Nanos}

namespace WaitsBy

variable {proxy : Nat} {deadline deadline' : Nanos} {p : PostedPass}

theorem mono (h : WaitsBy queue proxy deadline p) (hle : deadline ≤ deadline') :
    WaitsBy queue proxy deadline' p := by
  obtain ⟨q, hq, htask, hdue⟩ := h
  exact ⟨q, hq, htask, Nat.le_trans hdue hle⟩

/-- A task that is posted does not drive out another. -/
theorem accept (h : WaitsBy queue proxy deadline p) (task : Task S) (delay : Nanos) :
    WaitsBy (queue.accept task delay) proxy deadline p := by
  obtain ⟨q, hq, hpass⟩ := h
  exact ⟨q, TaskQueue.mem_pending_accept.2 (.inr hq), hpass⟩

/-- A pass that was just posted is due after its delay. -/
theorem posted (delay : Nanos) :
    WaitsBy (queue.accept (p.task proxy 0) delay) proxy (queue.now + delay) p :=
  ⟨_, TaskQueue.mem_pending_accept.2 (.inl rfl), rfl, Nat.le_refl _⟩

/-- A task that is taken out may be another one. -/
theorem without {q : Pending (Task S)} {rest : List (Pending (Task S))}
    (h : WaitsBy queue proxy deadline p) (hpending : queue.pending = q :: rest)
    (hother : q.task ≠ p.task proxy 0) : WaitsBy (queue.without q rest) proxy deadline p := by
  obtain ⟨r, hr, htask, hdue⟩ := h
  rw [hpending] at hr
  rcases List.mem_cons.1 hr with rfl | hr
  · exact absurd htask hother
  · exact ⟨r, hr, htask, hdue⟩

end WaitsBy

namespace Prompt

/-- There is no other manager. -/
theorem eq_of_get? (hP : Prompt Good debts proxies handles stubs managers queue begun seat)
    {number : Nat} {seat' : ManagerSeat S} (hseat : managers.get? number = some seat') :
    number = 0 ∧ seat' = seat :=
  Roster.eq_of_sole hP.sole hseat

theorem get?_zero (hP : Prompt Good debts proxies handles stubs managers queue begun seat) :
    managers.get? 0 = some seat :=
  Roster.get?_zero_of_sole hP.sole

/-- A pass that is waited for is live. -/
theorem isLive_of_awaited
    (hP : Prompt Good debts proxies handles stubs managers queue begun seat) {p : PostedPass}
    (hp : p ∈ seat.manager.awaited) : p.isLive handles = true := by
  rcases Manager.mem_awaited.1 hp with ⟨rfl, -⟩ | ⟨handle, rfl, hheld⟩
  · rfl
  · rw [PostedPass.isLive_later, (hP.held hheld).2]
    rfl

/-- A change of the manager that leaves its requests and its pace alone. -/
theorem congr (hP : Prompt Good debts proxies handles stubs managers queue begun seat)
    {f : ManagerSeat S → ManagerSeat S} (hproxy : (f seat).proxy = seat.proxy)
    (hsame : seat.manager.SamePace (f seat).manager)
    (howner : Good (f seat).owner.onEnumerate) :
    Prompt Good debts proxies handles stubs (managers.update 0 f) queue begun (f seat) where
  sole := Roster.members_update_zero hP.sole _
  named := hP.named
  gate := by
    rw [hproxy, hsame.shutDown]
    exact hP.gate
  accepting := hP.accepting
  inTime := hP.inTime
  plain hq := by
    rw [hproxy]
    exact hP.plain hq
  onEnumerate := howner
  stubs := hP.stubs
  canceled := hP.canceled
  held hheld := hP.held (hsame.delayed ▸ hheld)
  waiting hup p hp := by
    rw [hproxy, hsame.delay]
    exact hP.waiting (hsame.shutDown ▸ hup) (hsame.awaited_eq ▸ hp)
  counted := hP.counted
  owed hdebt hunpaid hup := by
    rw [hproxy, hsame.awaited_eq]
    exact hP.owed hdebt hunpaid (hsame.shutDown ▸ hup)

/-! ## Transitions -/

/-- Emptying the slot cancels what it held; all that is canceled then was issued before. -/
theorem canceled_cancel
    (hP : Prompt Good debts proxies handles stubs managers queue begun seat) {handle : Handle}
    (hcanceled : (seat.manager.delayed.cancel handles).2.isCanceled handle = true) :
    handle < (seat.manager.delayed.cancel handles).2.issued := by
  rw [Slot.isCanceled_cancel, Bool.or_eq_true, decide_eq_true_iff] at hcanceled
  rw [Slot.issued_cancel]
  exact hcanceled.elim (fun hheld => (hP.held hheld).1) hP.canceled

/-- **What waits is taken down.** This is all right once the manager is shut down, and if a
pass starts, which pays all debts. -/
theorem clear (hP : Prompt Good debts proxies handles stubs managers queue begun seat)
    {queue' : TaskQueue (Task S)} {begun' : Nat} (haccepting : queue'.accepting = true)
    (hinTime : queue'.InTime) (hsub : ∀ q ∈ queue'.pending, q ∈ queue.pending)
    (hle : begun ≤ begun') (hpaid : seat.manager.shutDown = false → begun < begun') :
    Prompt Good debts proxies (seat.manager.clearWaiting handles).2 stubs
      (managers.update 0 fun s => { s with manager := (seat.manager.clearWaiting handles).1 })
      queue' begun' { seat with manager := (seat.manager.clearWaiting handles).1 } where
  sole := Roster.members_update_zero hP.sole _
  named := hP.named
  gate := hP.gate
  accepting := haccepting
  inTime := hinTime
  plain hq := hP.plain (hsub _ hq)
  onEnumerate := hP.onEnumerate
  stubs := hP.stubs
  canceled hcanceled := hP.canceled_cancel hcanceled
  held hheld := nomatch (Slot.current_cancel seat.manager.delayed handles).symm.trans hheld
  waiting _ p hp := by
    rw [Manager.awaited_clearWaiting] at hp
    cases hp
  counted hdebt := Nat.le_trans (hP.counted hdebt) hle
  owed hdebt hunpaid hup :=
    absurd (Nat.lt_of_le_of_lt (hP.counted hdebt) (hpaid hup)) (hunpaid ▸ Nat.lt_irrefl _)

/-- **The end**: the gate is shut, and nothing is owed any more. -/
theorem shutDown (hP : Prompt Good debts proxies handles stubs managers queue begun seat)
    {gate : Proxy} (hgate : proxies.get? seat.proxy = some gate) :
    Prompt Good debts (proxies.update seat.proxy fun _ => { gate with shutDown := true })
      ({ seat.manager with shutDown := true }.clearWaiting handles).2 stubs
      (managers.update 0 fun s =>
        { s with manager := ({ seat.manager with shutDown := true }.clearWaiting handles).1 })
      queue begun
      { seat with manager := ({ seat.manager with shutDown := true }.clearWaiting handles).1 } where
  sole := Roster.members_update_zero hP.sole _
  named := hP.named
  gate := by
    rw [Roster.get?_update_of_some hgate]
    rfl
  accepting := hP.accepting
  inTime := hP.inTime
  plain := hP.plain
  onEnumerate := hP.onEnumerate
  stubs := hP.stubs
  canceled hcanceled := hP.canceled_cancel hcanceled
  held hheld := nomatch (Slot.current_cancel seat.manager.delayed handles).symm.trans hheld
  waiting hup := nomatch hup
  counted := hP.counted
  owed _ _ hup := nomatch hup

/-- A task is taken out that is not the task of a pass that is waited for, or the manager is
shut down. -/
theorem pop (hP : Prompt Good debts proxies handles stubs managers queue begun seat)
    {q : Pending (Task S)} {rest : List (Pending (Task S))} (hpending : queue.pending = q :: rest)
    (hother : seat.manager.shutDown = false → ∀ p ∈ seat.manager.awaited,
      q.task ≠ p.task seat.proxy 0) :
    Prompt Good debts proxies handles stubs managers (queue.without q rest) begun seat :=
  { hP with
    inTime := hP.inTime.without hpending
    plain := fun hq => hP.plain (hpending ▸ List.mem_cons_of_mem _ hq)
    waiting := fun hup p hp => ((hP.waiting hup hp).without hpending (hother hup p hp)).mono
      (Nat.add_le_add_right (Nat.le_max_left ..) _)
    owed := fun hdebt hunpaid hup => by
      obtain ⟨p, hp, hwaits⟩ := hP.owed hdebt hunpaid hup
      exact ⟨p, hp, hwaits.without hpending (hother hup p hp)⟩ }

/-- The gate stays as it is when it drops a task. -/
theorem drop (hP : Prompt Good debts proxies handles stubs managers queue begun seat) :
    Prompt Good debts (proxies.update seat.proxy Proxy.drop) handles stubs managers queue begun
      seat :=
  { hP with
    gate := by
      rw [Roster.get?_update_self, Option.map_map]
      exact hP.gate }

/-- A good script is posted. -/
theorem post (hP : Prompt Good debts proxies handles stubs managers queue begun seat)
    {task : Task S} (hplain : IsPlain Good seat.proxy task) (delay : Nanos) :
    Prompt Good debts proxies handles stubs managers (queue.accept task delay) begun seat :=
  { hP with
    inTime := hP.inTime.accept task delay
    plain := fun hq => by
      rcases TaskQueue.mem_pending_accept.1 hq with rfl | hq
      · exact hplain
      · exact hP.plain hq
    waiting := fun hup _ hp => (hP.waiting hup hp).accept task delay
    owed := fun hdebt hunpaid hup => by
      obtain ⟨p, hp, hwaits⟩ := hP.owed hdebt hunpaid hup
      exact ⟨p, hp, hwaits.accept task delay⟩ }

/-- **An immediate pass** is posted, and takes the place of whatever was waited for. It is due
now, and so by the deadline of every debt. -/
theorem postNow (hP : Prompt Good debts proxies handles stubs managers queue begun seat)
    (hup : seat.manager.shutDown = false) {m : Manager}
    (hm : m = { seat.manager with
      delayed := (seat.manager.delayed.cancel handles).1, immediate := true }) :
    Prompt Good (incur debts begun queue.now) proxies (seat.manager.delayed.cancel handles).2 stubs
      (managers.update 0 fun s => { s with manager := m })
      (queue.accept (PostedPass.now.task seat.proxy 0) 0) begun { seat with manager := m } where
  sole := Roster.members_update_zero hP.sole _
  named := hP.named
  gate := by
    rw [hm]
    exact hP.gate
  accepting := hP.accepting
  inTime := hP.inTime.accept _ 0
  plain hq := by
    rcases TaskQueue.mem_pending_accept.1 hq with rfl | hq
    · exact .pass .now
    · exact hP.plain hq
  onEnumerate := hP.onEnumerate
  stubs := hP.stubs
  canceled hcanceled := hP.canceled_cancel hcanceled
  held hheld := by
    rw [hm] at hheld
    cases (Slot.current_cancel seat.manager.delayed handles).symm.trans hheld
  waiting _ p hp := by
    rw [hm] at hp
    rcases Manager.mem_awaited.1 hp with ⟨rfl, -⟩ | ⟨handle, rfl, hheld⟩
    · exact WaitsBy.posted 0
    · cases (Slot.current_cancel seat.manager.delayed handles).symm.trans hheld
  counted hdebt := by
    rcases hdebt with hdebt | ⟨rfl, -⟩
    · exact hP.counted hdebt
    · exact Nat.le_refl _
  owed {n deadline} hdebt hunpaid _ := by
    have hnow : queue.now ≤ deadline := by
      rcases hdebt with hdebt | ⟨-, rfl⟩
      · obtain ⟨-, -, q, hq, -, hdue⟩ := hP.owed hdebt hunpaid hup
        exact Nat.le_trans (hP.inTime.notBefore hq) hdue
      · exact Nat.le_refl _
    refine ⟨.now, ?_, (WaitsBy.posted 0).mono hnow⟩
    rw [hm]
    exact Manager.mem_awaited.2 (.inl ⟨rfl, rfl⟩)

/-- **A delayed pass** is posted, if nothing is waited for; so all other debts are paid. -/
theorem postDelayed (hP : Prompt Good debts proxies handles stubs managers queue begun seat)
    (hup : seat.manager.shutDown = false) (himmediate : seat.manager.immediate = false)
    (hfree : seat.manager.delayed.current = none) {m : Manager}
    (hm : m = { seat.manager with delayed := ⟨some handles.issued⟩ }) :
    Prompt Good (incur debts begun (queue.now + seat.manager.delay)) proxies handles.issue.2 stubs
      (managers.update 0 fun s => { s with manager := m })
      (queue.accept ((PostedPass.later handles.issued).task seat.proxy 0) seat.manager.delay) begun
      { seat with manager := m } := by
  have hawaited {p : PostedPass} : p ∈ m.awaited ↔ p = .later handles.issued := by
    rw [Manager.mem_awaited, hm]
    simp [himmediate, eq_comm]
  have hnone {p : PostedPass} : p ∉ seat.manager.awaited := by
    rw [Manager.mem_awaited]
    simp [himmediate, hfree]
  refine {
    sole := Roster.members_update_zero hP.sole _
    named := hP.named
    gate := by
      rw [hm]
      exact hP.gate
    accepting := hP.accepting
    inTime := hP.inTime.accept _ _
    plain := fun hq => ?_
    onEnumerate := hP.onEnumerate
    stubs := hP.stubs
    canceled := fun hcanceled => Nat.lt_succ_of_lt (hP.canceled hcanceled)
    held := fun {handle} hheld => ?_
    waiting := fun _ p hp => ?_
    counted := fun hdebt => ?_
    owed := fun hdebt hunpaid _ => ⟨_, hawaited.2 rfl, ?_⟩ }
  · rcases TaskQueue.mem_pending_accept.1 hq with rfl | hq
    · exact .pass _
    · exact hP.plain hq
  · obtain rfl : handles.issued = handle := by
      rw [hm] at hheld
      exact Option.some.inj hheld
    refine ⟨Nat.lt_succ_self _, Bool.eq_false_iff.2 fun hcanceled => ?_⟩
    exact Nat.lt_irrefl _ (hP.canceled hcanceled)
  · rw [hawaited.1 hp, hm]
    exact WaitsBy.posted _
  · rcases hdebt with hdebt | ⟨rfl, -⟩
    · exact hP.counted hdebt
    · exact Nat.le_refl _
  · rcases hdebt with hdebt | ⟨-, rfl⟩
    · obtain ⟨p, hp, -⟩ := hP.owed hdebt hunpaid hup
      exact absurd hp hnone
    · exact WaitsBy.posted _

/-- A request that is covered: what is waited for serves as well. -/
theorem covered (hP : Prompt Good debts proxies handles stubs managers queue begun seat)
    {immediate : Bool}
    (hcovered : seat.manager.shutDown = true ∨ seat.manager.immediate = true ∨
      immediate = false ∧ seat.manager.delayed.isPending handles = true) :
    Prompt Good (incur debts begun (queue.now + if immediate then 0 else seat.manager.delay))
      proxies handles stubs managers queue begun seat :=
  { hP with
    counted := fun hdebt => by
      rcases hdebt with hdebt | ⟨rfl, -⟩
      · exact hP.counted hdebt
      · exact Nat.le_refl _
    owed := fun hdebt hunpaid hup => by
      rcases hdebt with hdebt | ⟨-, rfl⟩
      · exact hP.owed hdebt hunpaid hup
      rcases hcovered with hdown | himmediate | ⟨rfl, hpending⟩
      · cases hdown.symm.trans hup
      · have hp := Manager.mem_awaited.2 (.inl ⟨rfl, himmediate⟩)
        exact ⟨_, hp, (hP.waiting hup hp).mono (Nat.add_le_add_left (Nat.zero_le _) _)⟩
      · obtain ⟨handle, hheld⟩ : ∃ handle, seat.manager.delayed.current = some handle := by
          unfold Slot.isPending at hpending
          split at hpending
          · cases hpending
          · next handle hheld => exact ⟨handle, hheld⟩
        have hp := Manager.mem_awaited.2 (.inr ⟨handle, rfl, hheld⟩)
        exact ⟨_, hp, hP.waiting hup hp⟩ }

/-- **A debt is paid** by the time nothing is due any more that is due by its deadline, unless
the manager was shut down. -/
theorem paid (hP : Prompt Good debts proxies handles stubs managers queue begun seat)
    {deadline : Nanos} (hnone : queue.popDue deadline = none) {n : Nat} {deadline' : Nanos}
    (hdebt : debts n deadline') (hle : deadline' ≤ deadline) :
    n < begun ∨ seat.manager.shutDown = true := by
  rcases Nat.lt_or_eq_of_le (hP.counted hdebt) with hpaid | hunpaid
  · exact .inl hpaid
  · refine .inr (Bool.not_eq_false _ ▸ fun hup => ?_)
    obtain ⟨-, -, q, hq, -, hdue⟩ := hP.owed hdebt hunpaid.symm hup
    have hlate := hP.inTime.lt_due_of_popDue_eq_none hnone hq
    exact absurd (Nat.le_trans hdue hle) (Nat.not_le_of_lt hlate)

end Prompt

end Host

end Compositor
