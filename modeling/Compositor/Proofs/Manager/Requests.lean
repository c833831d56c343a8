import Compositor.Manager.State
import Compositor.Proofs.Task.Slots
import Mathlib.Data.List.Perm.Basic

/-!
# What a manager waits for is what was posted

A manager knows that a pass waits by a flag and by a slot; what makes the pass run are
the tasks that were posted. `Manager.Coalesced` ties the two: of the passes that were
posted and did not have their turn yet, those that would still run are the one that the
manager waits for, or none. It survives each transition of the manager together with
what is posted and taken out around it – also if the post is refused.
-/

namespace Compositor

/-! ## Posted passes -/

/-- A pass as it was posted: at once, or delayed and guarded by a handle. -/
inductive PostedPass where
  | now
  | later (handle : Handle)
  deriving DecidableEq

/-- Whether the pass would still run, as far as its guard goes. -/
def PostedPass.isLive (handles : Handles) : PostedPass → Bool
  | .now => true
  | .later handle => !handles.isCanceled handle

@[simp] theorem PostedPass.isLive_now (handles : Handles) : isLive handles .now = true := rfl

@[simp] theorem PostedPass.isLive_later (handles : Handles) (handle : Handle) :
    isLive handles (.later handle) = !handles.isCanceled handle :=
  rfl

namespace Manager

/-- What is posted for a request. -/
def Request.posts : Request → Option PostedPass
  | .covered => none
  | .postNow => some .now
  | .postDelayed handle => some (.later handle)

/-- **What a request does.** It is covered, because no pass is wanted any more or one waits
that serves as well; or it is immediate and takes the place of whatever waits; or it is
delayed, nothing waits, and it gets a new handle. -/
theorem request_cases {m m' : Manager} {immediate : Bool} {handles handles' : Handles}
    {request : Request} (hrequest : m.request immediate handles = (request, m', handles')) :
    (request = .covered ∧ m' = m ∧ handles' = handles ∧
      (m.shutDown = true ∨ m.immediate = true ∨
        immediate = false ∧ m.delayed.isPending handles = true)) ∨
    (request = .postNow ∧ immediate = true ∧ m.shutDown = false ∧ m.immediate = false ∧
      m' = { m with delayed := (m.delayed.cancel handles).1, immediate := true } ∧
      handles' = (m.delayed.cancel handles).2) ∨
    (request = .postDelayed handles.issued ∧ immediate = false ∧ m.shutDown = false ∧
      m.immediate = false ∧ m.delayed.isPending handles = false ∧
      m' = { m with delayed := ⟨some handles.issued⟩ } ∧
      handles' = (m.delayed.cancel handles.issue.2).2) := by
  unfold Manager.request at hrequest
  split at hrequest
  · next hclosed =>
    cases hrequest
    exact .inl ⟨rfl, rfl, rfl, (Bool.or_eq_true_iff.1 hclosed).imp_right .inl⟩
  · next hopen =>
    obtain ⟨hup, himmediate⟩ : m.shutDown = false ∧ m.immediate = false := by simpa using hopen
    split at hrequest
    · next hnow =>
      cases hrequest
      exact .inr (.inl ⟨rfl, hnow, hup, himmediate, rfl, rfl⟩)
    · next hlater =>
      have hlater : immediate = false := Bool.not_eq_true _ ▸ hlater
      split at hrequest
      · next hpending =>
        cases hrequest
        exact .inl ⟨rfl, rfl, rfl, .inr (.inr ⟨hlater, hpending⟩)⟩
      · next hfree =>
        cases hrequest
        exact .inr (.inr ⟨rfl, hlater, hup, himmediate, Bool.not_eq_true _ ▸ hfree, rfl, rfl⟩)

/-- What a manager waits for. -/
def awaited (m : Manager) : List PostedPass :=
  (if m.immediate then [.now] else []) ++ m.delayed.current.toList.map .later

/-- What is waited for is an immediate pass, if the flag is up, and what the slot holds. -/
theorem mem_awaited {m : Manager} {p : PostedPass} :
    p ∈ m.awaited ↔ (p = .now ∧ m.immediate = true) ∨
      ∃ handle, p = .later handle ∧ m.delayed.current = some handle := by
  unfold awaited
  cases p with
  | now => cases m.immediate <;> simp
  | later handle => cases m.immediate <;> simp

/-- **What a manager waits for is what was posted.** -/
structure Coalesced (m : Manager) (handles : Handles) (posted : List PostedPass) : Prop where
  issued {handle : Handle} (hposted : .later handle ∈ posted) : handle < handles.issued
  canceled {handle : Handle} (hcanceled : handles.isCanceled handle = true) :
    handle < handles.issued
  held {handle : Handle} (hheld : m.delayed.current = some handle) :
    handle < handles.issued ∧ handles.isCanceled handle = false
  /-- An immediate pass is never waited for beside a delayed one. -/
  exclusive (himmediate : m.immediate = true) : m.delayed.current = none
  ended (hdown : m.shutDown = true) : m.awaited = []
  live (hup : m.shutDown = false) : (posted.filter (PostedPass.isLive handles)).Perm m.awaited

@[simp] theorem awaited_clearWaiting (m : Manager) (handles : Handles) :
    (m.clearWaiting handles).1.awaited = [] := by
  have hcurrent : (m.clearWaiting handles).1.delayed.current = none :=
    Slot.current_cancel m.delayed handles
  unfold awaited
  rw [hcurrent]
  rfl

@[simp] theorem isScheduled_clearWaiting (m : Manager) (handles handles' : Handles) :
    (m.clearWaiting handles).1.isScheduled handles' = false := by
  have hcurrent : (m.clearWaiting handles).1.delayed.current = none :=
    Slot.current_cancel m.delayed handles
  unfold isScheduled Slot.isPending
  rw [hcurrent]
  rfl

/-- Two managers are asked for the same. -/
structure SameRequests (m m' : Manager) : Prop where
  immediate : m'.immediate = m.immediate
  delayed : m'.delayed = m.delayed
  shutDown : m'.shutDown = m.shutDown

theorem SameRequests.awaited_eq {m m' : Manager} (h : SameRequests m m') :
    m'.awaited = m.awaited := by
  unfold awaited
  rw [h.immediate, h.delayed]

theorem SameRequests.isScheduled_eq {m m' : Manager} (h : SameRequests m m')
    (handles : Handles) : m'.isScheduled handles = m.isScheduled handles := by
  unfold isScheduled
  rw [h.immediate, h.delayed]

namespace Coalesced

variable {m : Manager} {handles : Handles} {posted : List PostedPass}

theorem congr {m' : Manager} (h : m.Coalesced handles posted) (hsame : SameRequests m m') :
    m'.Coalesced handles posted where
  issued := h.issued
  canceled := h.canceled
  held hheld := h.held (hsame.delayed ▸ hheld)
  exclusive himmediate := by
    rw [hsame.delayed]
    exact h.exclusive (hsame.immediate ▸ himmediate)
  ended hdown := hsame.awaited_eq.trans (h.ended (hsame.shutDown ▸ hdown))
  live hup := hsame.awaited_eq ▸ h.live (hsame.shutDown ▸ hup)

/-- The order in which passes were posted does not matter. -/
theorem perm {posted' : List PostedPass} (h : m.Coalesced handles posted)
    (hperm : posted'.Perm posted) : m.Coalesced handles posted' where
  issued hposted := h.issued (hperm.mem_iff.1 hposted)
  canceled := h.canceled
  held := h.held
  exclusive := h.exclusive
  ended := h.ended
  live hup := (hperm.filter _).trans (h.live hup)

/-! ## What is waited for -/

/-- The next handle was not canceled before it is issued. -/
theorem isCanceled_issued (h : m.Coalesced handles posted) :
    handles.isCanceled handles.issued = false := by
  cases hcanceled : handles.isCanceled handles.issued with
  | true => exact absurd (h.canceled hcanceled) (Nat.lt_irrefl _)
  | false => rfl

/-- A delayed pass that is waited for is pending. -/
theorem isPending_eq (h : m.Coalesced handles posted) :
    m.delayed.isPending handles = m.delayed.current.isSome := by
  unfold Slot.isPending
  cases hheld : m.delayed.current with
  | none => rfl
  | some handle =>
    show (!handles.isCanceled handle) = true
    rw [(h.held hheld).2]
    rfl

/-- **At most one pass is waited for**, and one exactly if a pass is scheduled. -/
theorem length_awaited (h : m.Coalesced handles posted) :
    m.awaited.length = if m.isScheduled handles then 1 else 0 := by
  unfold awaited isScheduled
  rw [h.isPending_eq]
  cases himmediate : m.immediate with
  | true => rw [h.exclusive himmediate]; rfl
  | false => cases m.delayed.current <;> rfl

/-- A manager that was shut down has nothing scheduled. -/
theorem isScheduled_of_shutDown (h : m.Coalesced handles posted) (hdown : m.shutDown = true) :
    m.isScheduled handles = false := by
  have hlength := h.length_awaited
  rw [h.ended hdown] at hlength
  split at hlength
  · cases hlength
  · next hnot => exact Bool.not_eq_true _ ▸ hnot

/-- A live pass that was posted is scheduled. -/
theorem isScheduled_of_awaited {p : PostedPass} (h : m.Coalesced handles posted)
    (hwaits : m.awaited = [p]) : m.isScheduled handles = true := by
  have hlength := h.length_awaited
  rw [hwaits] at hlength
  split at hlength
  · next hscheduled => exact hscheduled
  · cases hlength

/-- **As many posted passes are live as are scheduled.** -/
theorem length_live (h : m.Coalesced handles posted) (hup : m.shutDown = false) :
    (posted.filter (PostedPass.isLive handles)).length = if m.isScheduled handles then 1 else 0 :=
  (h.live hup).length_eq.trans h.length_awaited

/-- A live pass that was posted is the one that is waited for, and no other is live. -/
theorem of_live_cons {p : PostedPass} (h : m.Coalesced handles (p :: posted))
    (hup : m.shutDown = false) (hlive : p.isLive handles = true) :
    m.awaited = [p] ∧ posted.filter (PostedPass.isLive handles) = [] := by
  -- it is among what is waited for, which is one pass at most
  have hperm := h.live hup
  rw [List.filter_cons_of_pos hlive] at hperm
  have hlength := hperm.length_eq
  rw [h.length_awaited, List.length_cons] at hlength
  have hrest : posted.filter (PostedPass.isLive handles) = [] := by
    refine List.eq_nil_of_length_eq_zero ?_
    split at hlength <;> omega
  rw [hrest] at hperm
  exact ⟨List.perm_singleton.1 hperm.symm, hrest⟩

/-! ## Passes that have their turn -/

/-- A pass that would not run may have its turn. -/
theorem of_dead_cons {p : PostedPass} (h : m.Coalesced handles (p :: posted))
    (hdead : p.isLive handles = false) : m.Coalesced handles posted where
  issued hposted := h.issued (List.mem_cons_of_mem _ hposted)
  canceled := h.canceled
  held := h.held
  exclusive := h.exclusive
  ended := h.ended
  live hup := by
    have hperm := h.live hup
    rwa [List.filter_cons_of_neg (by rw [hdead]; exact Bool.false_ne_true)] at hperm

/-- After the end any pass may have its turn. -/
theorem of_cons_of_shutDown {p : PostedPass} (h : m.Coalesced handles (p :: posted))
    (hdown : m.shutDown = true) : m.Coalesced handles posted where
  issued hposted := h.issued (List.mem_cons_of_mem _ hposted)
  canceled := h.canceled
  held := h.held
  exclusive := h.exclusive
  ended := h.ended
  live hup := absurd (hdown.symm.trans hup) Bool.noConfusion

/-! ## Transitions -/

/-- What is not live does not come to life when a slot is emptied. -/
theorem filter_cancel_eq_nil (s : Slot)
    (hnone : posted.filter (PostedPass.isLive handles) = []) :
    posted.filter (PostedPass.isLive (s.cancel handles).2) = [] := by
  refine List.filter_eq_nil_iff.2 fun p hp hlive => List.filter_eq_nil_iff.1 hnone p hp ?_
  cases p with
  | now => rfl
  | later handle =>
    rw [PostedPass.isLive_later, Slot.isCanceled_cancel, Bool.not_or, Bool.and_eq_true] at hlive
    exact hlive.2

/-- If no immediate pass waits, nothing is live once the slot is empty. -/
theorem filter_eq_nil_of_not_immediate (h : m.Coalesced handles posted)
    (hup : m.shutDown = false) (himmediate : m.immediate = false) :
    posted.filter (PostedPass.isLive (m.delayed.cancel handles).2) = [] := by
  refine List.filter_eq_nil_iff.2 fun p hp hlive => ?_
  have hmem (hp' : p.isLive handles = true) : p ∈ m.awaited :=
    (h.live hup).mem_iff.1 (List.mem_filter.2 ⟨hp, hp'⟩)
  unfold awaited at hmem
  rw [himmediate] at hmem
  cases p with
  | now => simpa using hmem rfl
  | later handle =>
    rw [PostedPass.isLive_later, Slot.isCanceled_cancel, Bool.not_or, Bool.and_eq_true] at hlive
    have hheld : m.delayed.current = some handle := by simpa using hmem hlive.2
    simp [hheld] at hlive

/-- Taking down what waits. It may be that the manager is shut down by it. -/
theorem clearWaiting_of {m' : Manager} {posted' : List PostedPass}
    (h : m.Coalesced handles posted) (hslot : m'.delayed = m.delayed)
    (hsub : ∀ p ∈ posted', p ∈ posted)
    (hnone : m'.shutDown = false →
      posted'.filter (PostedPass.isLive (m'.delayed.cancel handles).2) = []) :
    (m'.clearWaiting handles).1.Coalesced (m'.clearWaiting handles).2 posted' := by
  have hcurrent : (m'.clearWaiting handles).1.delayed.current = none :=
    Slot.current_cancel m'.delayed handles
  have hissued : (m'.clearWaiting handles).2.issued = handles.issued :=
    Slot.issued_cancel m'.delayed handles
  have hawaited := m'.awaited_clearWaiting handles
  refine ⟨fun hposted => ?_, fun {handle} hcanceled => ?_, fun hheld => ?_, fun _ => hcurrent,
    fun _ => hawaited, fun hup => ?_⟩
  · rw [hissued]
    exact h.issued (hsub _ hposted)
  · rw [hissued]
    have hcanceled : (m'.delayed.cancel handles).2.isCanceled handle = true := hcanceled
    rw [Slot.isCanceled_cancel, Bool.or_eq_true, decide_eq_true_iff, hslot] at hcanceled
    exact hcanceled.elim (fun hheld => (h.held hheld).1) h.canceled
  · rw [hcurrent] at hheld
    cases hheld
  · rw [hawaited]
    exact (hnone hup).symm ▸ List.Perm.refl _

/-- **A live pass has its turn**, or it was not accepted: it was the one that is waited for,
so nothing is left when what waits is taken down. -/
theorem of_live_turn {p : PostedPass} (h : m.Coalesced handles (p :: posted))
    (hup : m.shutDown = false) (hlive : p.isLive handles = true) :
    (m.clearWaiting handles).1.Coalesced (m.clearWaiting handles).2 posted :=
  h.clearWaiting_of rfl (fun _ => List.mem_cons_of_mem p) fun _ =>
    filter_cancel_eq_nil m.delayed (h.of_live_cons hup hlive).2

/-- **The end.** Whatever was posted stays posted, but nothing is waited for. -/
theorem shutDown (h : m.Coalesced handles posted) :
    ({ m with shutDown := true }.clearWaiting handles).1.Coalesced
      ({ m with shutDown := true }.clearWaiting handles).2 posted :=
  h.clearWaiting_of rfl (fun _ => id) fun hup => nomatch hup

/-- What a request that is refused leaves is what a pass that starts leaves. -/
theorem refused_eq {p : PostedPass} (h : m.Coalesced handles (p :: posted))
    (hup : m.shutDown = false) (hlive : p.isLive handles = true) :
    m.refused (decide (p = .now)) handles = m.clearWaiting handles := by
  have hwaits := (h.of_live_cons hup hlive).1
  unfold awaited at hwaits
  cases p with
  | now =>
    have himmediate : m.immediate = true := by
      cases hm : m.immediate with
      | true => rfl
      | false => simp [hm] at hwaits
    have hslot := h.exclusive himmediate
    unfold refused clearWaiting Slot.cancel
    rw [hslot]
    rfl
  | later handle =>
    have himmediate : m.immediate = false := by
      cases hm : m.immediate with
      | true => simp [hm] at hwaits
      | false => rfl
    unfold refused clearWaiting
    rw [if_neg (by simp), himmediate]

/-- An immediate request takes the place of a delayed one. -/
theorem postNow (h : m.Coalesced handles posted) (hup : m.shutDown = false)
    (himmediate : m.immediate = false) :
    { m with delayed := (m.delayed.cancel handles).1, immediate := true }.Coalesced
      (m.delayed.cancel handles).2 (.now :: posted) where
  issued {handle} hposted := by
    rw [Slot.issued_cancel]
    exact h.issued ((List.mem_cons.1 hposted).resolve_left nofun)
  canceled {handle} hcanceled := by
    rw [Slot.isCanceled_cancel, Bool.or_eq_true, decide_eq_true_iff] at hcanceled
    rw [Slot.issued_cancel]
    exact hcanceled.elim (fun hheld => (h.held hheld).1) h.canceled
  held hheld := by simp at hheld
  exclusive _ := Slot.current_cancel m.delayed handles
  ended hdown := absurd (hdown.symm.trans hup) Bool.noConfusion
  live _ := by
    rw [List.filter_cons_of_pos (PostedPass.isLive_now _),
      h.filter_eq_nil_of_not_immediate hup himmediate]
    simp [awaited]

/-- A delayed request, if nothing waits, gets a handle that was not issued before. -/
theorem postDelayed (h : m.Coalesced handles posted) (hup : m.shutDown = false)
    (himmediate : m.immediate = false) (hfree : m.delayed.current = none) :
    { m with delayed := ⟨some handles.issued⟩ }.Coalesced handles.issue.2
      (.later handles.issued :: posted) where
  issued {handle} hposted := by
    rcases List.mem_cons.1 hposted with heq | hposted
    · cases heq
      exact Nat.lt_succ_self _
    · exact Nat.lt_succ_of_lt (h.issued hposted)
  canceled hcanceled := Nat.lt_succ_of_lt (h.canceled hcanceled)
  held {handle} hheld := by
    obtain rfl := Option.some.inj hheld
    exact ⟨Nat.lt_succ_self _, h.isCanceled_issued⟩
  exclusive himmediate' := absurd (himmediate'.symm.trans himmediate) Bool.noConfusion
  ended hdown := absurd (hdown.symm.trans hup) Bool.noConfusion
  live _ := by
    have hlive : PostedPass.isLive handles.issue.2 (.later handles.issued) = true := by
      rw [PostedPass.isLive_later, Handles.isCanceled_issue, h.isCanceled_issued]
      rfl
    have hrest : posted.filter (PostedPass.isLive handles.issue.2) = [] := by
      have hnone := h.filter_eq_nil_of_not_immediate hup himmediate
      unfold Slot.cancel at hnone
      rw [hfree] at hnone
      exact hnone
    rw [List.filter_cons_of_pos hlive, hrest]
    simp [awaited, himmediate]

/-- **A request** is covered and changes nothing, or it calls for a pass to be posted that
is live and, with what was posted before, is what the manager waits for then. -/
theorem request {immediate : Bool} {request : Request} {m' : Manager} {handles' : Handles}
    (h : m.Coalesced handles posted)
    (hrequest : m.request immediate handles = (request, m', handles')) :
    (request = .covered ∧ m' = m ∧ handles' = handles) ∨
      ∃ p, request.posts = some p ∧ m.shutDown = false ∧ m'.shutDown = false ∧
        m'.Coalesced handles' (p :: posted) ∧ p.isLive handles' = true := by
  rcases request_cases hrequest with
    ⟨rfl, rfl, rfl, -⟩ | ⟨rfl, -, hup, himmediate, rfl, rfl⟩ |
    ⟨rfl, -, hup, himmediate, hpending, rfl, rfl⟩
  · exact .inl ⟨rfl, rfl, rfl⟩
  · exact .inr ⟨.now, rfl, hup, hup, h.postNow hup himmediate, rfl⟩
  · have hfree : m.delayed.current = none := by
      rw [h.isPending_eq] at hpending
      simpa using hpending
    -- a slot that is not pending is empty, so nothing is canceled to fill it
    have hcancel : (m.delayed.cancel handles.issue.2).2 = handles.issue.2 := by
      unfold Slot.cancel
      rw [hfree]
    rw [hcancel]
    have hposted := h.postDelayed hup himmediate hfree
    have hlive : PostedPass.isLive handles.issue.2 (.later handles.issued) = true := by
      rw [PostedPass.isLive_later, (hposted.held rfl).2]
      rfl
    exact .inr ⟨.later handles.issued, rfl, hup, hup, hposted, hlive⟩

end Coalesced

end Manager

end Compositor
