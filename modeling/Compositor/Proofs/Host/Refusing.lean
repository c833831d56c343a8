import Compositor.Proofs.Host.Beside
import Compositor.Proofs.Host.Coalescing

/-!
# Requests that the runner refuses

A request for a pass is written down before the pass is posted: an immediate one cancels
the delayed pass that waits, a delayed one takes a new handle, and a number of windows is
kept. If the runner refuses the post, what was written down is taken back only in part:
the flag is lowered or the slot emptied, but a delayed pass that was canceled stays
canceled, and the number of windows stays as it was set.

So there is one pass that a refused request can cost: the delayed pass whose place an
immediate one was to take. Every other task in the queue is what it was, at the same
place and due at the same time, and the manager does not take a pass to be waiting that
is not. The number of windows that was refused a pass does not get one by being set
again, since setting it again changes nothing.

Whether a task would start a pass can be read off the host (`leadsToPass`),
whatever is in its queue.
-/

namespace Compositor

/-- The handles that guard a task, the outermost first. -/
def Task.guards {S : Type} : Task S → List Handle
  | .guarded handle task => handle :: task.guards
  | .proxied _ task => task.guards
  | _ => []

/-! ## What a refused request leaves of a manager -/

namespace Manager

variable {m : Manager} {handles : Handles}

/-- The handle that is left canceled if what a request has to post is refused: that of the
delayed pass whose place an immediate pass was to take, or the new one of the delayed pass
that was refused. -/
def Request.givesUp (m : Manager) : Request → Option Handle
  | .covered => none
  | .postNow => m.delayed.current
  | .postDelayed handle => some handle

/-- The handle that is left canceled if a request is refused. -/
def givenUp (m : Manager) (immediate : Bool) (handles : Handles) : Option Handle :=
  (m.request immediate handles).1.givesUp m

/-- An immediate request gives up the delayed pass that waits, unless it is covered. -/
theorem givenUp_true (m : Manager) (handles : Handles) :
    m.givenUp true handles = if m.shutDown || m.immediate then none else m.delayed.current := by
  unfold givenUp Manager.request
  split <;> rfl

/-- **A request was refused**, and the manager and the handles are what is left after it. -/
structure Rebuffed (m : Manager) (immediate : Bool) (handles : Handles) (m' : Manager)
    (handles' : Handles) : Prop where
  rest : m' = { m with delayed := m'.delayed }
  isCanceled (handle : Handle) :
    handles'.isCanceled handle
      = (handles.isCanceled handle || decide (m.givenUp immediate handles = some handle))
  isScheduled : m'.isScheduled handles' = true ↔
    m.isScheduled handles = true ∧ (m.request immediate handles).1 = .covered

/-- A request that is covered posts nothing, so there is nothing to refuse. -/
theorem rebuffed_of_covered {immediate : Bool}
    (hcovered : (m.request immediate handles).1 = .covered) :
    m.Rebuffed immediate handles m handles where
  rest := rfl
  isCanceled handle := by
    unfold givenUp
    rw [hcovered]
    exact (Bool.or_false _).symm
  isScheduled := ⟨fun hm => ⟨hm, hcovered⟩, And.left⟩

/-- **Taking back what was refused.** -/
theorem rebuffed_of_refused {m' : Manager} {immediate : Bool} {handles' : Handles}
    {request : Request} (hrequest : m.request immediate handles = (request, m', handles'))
    (hposts : request ≠ .covered) :
    m.Rebuffed immediate handles (m'.refused immediate handles').1
      (m'.refused immediate handles').2 := by
  have hgiven : m.givenUp immediate handles = request.givesUp m := by
    unfold givenUp
    rw [hrequest]
  have hnot : (m.request immediate handles).1 ≠ .covered := by rwa [hrequest]
  rcases request_cases hrequest with ⟨rfl, -⟩ | ⟨rfl, rfl, -, hflag, rfl, rfl⟩ |
    ⟨rfl, rfl, -, hflag, hfree, rfl, rfl⟩
  · exact absurd rfl hposts
  · refine ⟨?_, fun handle => ?_, iff_of_false ?_ fun h => hnot h.2⟩
    · simp only [refused, if_true, ← hflag]
    · show (m.delayed.cancel handles).2.isCanceled handle = _
      rw [Slot.isCanceled_cancel, hgiven, Bool.or_comm]
      rfl
    · simp [refused, isScheduled, Slot.isPending]
  · refine ⟨rfl, fun handle => ?_, iff_of_false ?_ fun h => hnot h.2⟩
    · show ((⟨some handles.issued⟩ : Slot).cancel (m.delayed.cancel handles.issue.2).2).2.isCanceled
        handle = _
      rw [Slot.isCanceled_cancel, Slot.isCanceled_cancel, Handles.isCanceled_issue, hgiven]
      -- what the slot still held was canceled before, since nothing was pending
      have hheld : decide (m.delayed.current = some handle) = true →
          handles.isCanceled handle = true := by
        intro hcurrent
        unfold Slot.isPending at hfree
        rw [of_decide_eq_true hcurrent] at hfree
        simpa using hfree
      cases hcurrent : decide (m.delayed.current = some handle) with
      | false =>
        rw [Bool.false_or, Bool.or_comm]
        rfl
      | true => rw [hheld hcurrent]; simp
    · have hempty : (⟨some handles.issued⟩ : Slot).cancel (m.delayed.cancel handles.issue.2).2
          = (({} : Slot), (m.delayed.cancel handles.issue.2).2.cancel handles.issued) := rfl
      simp [refused, isScheduled, Slot.isPending, hempty, hflag]

end Manager

namespace Host

open Compositor.Action

variable {S : Type} {h : Host S}

/-! ## Tasks that lead to a pass -/

/-- Whether a task, if it had its turn now, would get to starting a pass: its handle is not
canceled, its gate is open, and the manager is there and not shut down. -/
def leadsToPass (r : Residents S) : Task S → Bool
  | .guarded handle task => !r.handles.isCanceled handle && leadsToPass r task
  | .proxied proxy task =>
    !((r.proxies.get? proxy).map Proxy.shutDown).getD true && leadsToPass r task
  | .pass number => managerIsAlive r number
      && ((r.managers.get? number).map fun s => !s.manager.shutDown).getD false
  | _ => false

/-- How many passes have begun is not changed by what goes on beside the managers. -/
theorem beside_begun (n : Nat) :
    Beside (fun h : Host S => h.begun = n) fun h => h.begun = n where
  halted _ := id
  same _ _ hevents hP := by
    unfold begun
    rw [hevents]
    exact hP
  haltedSame _ _ hevents hE := by
    unfold begun
    rw [hevents]
    exact hE
  see he _ hP := (begun_see (Event.isEnumerate_of_isOfPass he)).trans hP

/-- **A task that has its turn starts one pass, or none.** It is let go on up to the first
callback. -/
theorem ends_runTask_interrupted (hthread : h.state.onThread = true) (task : Task S) :
    (runTask (fun _ => throw .outOfFuel) task).Ends h
      (fun _ h' => begun h' = h.begun + if leadsToPass h.state task then 1 else 0)
      fun _ h' => begun h' = h.begun + if leadsToPass h.state task then 1 else 0 := by
  have hrun (script : S) : ((fun _ => throw .outOfFuel : S → Act S Unit) script).Preserves
      (fun h' => begun h' = h.begun) fun h' => begun h' = h.begun :=
    Preserves.halt (fun _ => id) _
  induction task with
  | scripted label script =>
    unfold runTask
    simp only [ends_bind, ends_now, ends_emit, ends_throw]
    exact List.countP_cons_of_neg (p := Event.isEnumerate) (a := .run label h.queue.now)
      Bool.false_ne_true
  | guarded handle task ih =>
    unfold runTask leadsToPass
    simp only [ends_bind, ends_residents]
    cases h.state.handles.isCanceled handle with
    | true => exact rfl
    | false => exact ih
  | proxied proxy task ih =>
    unfold runTask leadsToPass
    simp only [ends_bind, ends_residents]
    cases ((h.state.proxies.get? proxy).map Proxy.shutDown).getD true with
    | true => exact rfl
    | false => exact ih
  | check limiter => exact (beside_begun h.begun).runCheck hrun limiter h rfl
  | frame fade => exact (beside_begun h.begun).runFrame hrun fade h rfl
  | pass number =>
    unfold runTask runPass leadsToPass
    simp only [ends_bind, ends_residents]
    cases managerIsAlive h.state number with
    | false => exact rfl
    | true =>
      simp only [if_true, Bool.true_and]
      unfold holding
      rw [ends_around]
      cases hseat : h.state.managers.get? number with
      | none =>
        rw [ends_manage_of_none (by exact hseat), if_pos hthread]
        exact rfl
      | some seat =>
        cases hdown : seat.manager.shutDown with
        | true =>
          rw [ends_manage_of_shutDown (by exact hseat) hdown, if_pos hthread]
          simp only [Option.map_some, Option.getD_some, hdown]
          exact rfl
        | false =>
          simp only [Option.map_some, Option.getD_some, hdown]
          refine ends_manage_interrupted (P := fun h' => begun h' = h.begun + 1) ?_ ?_ hdown ?_
          · exact hthread
          · exact hseat
          · exact List.countP_cons_of_pos rfl

/-- **Whether a task would start a pass can be read off the host.** -/
theorem startsPass_eq (task : Task S) : h.startsPass task = leadsToPass h.state task := by
  have hthread : leadsToPass { h.state with onThread := true } task = leadsToPass h.state task := by
    induction task with
    | guarded handle task ih => exact congrArg (_ && ·) ih
    | proxied proxy task ih => exact congrArg (_ && ·) ih
    | _ => rfl
  have hbegun : (h.attempt task).begun
      = h.begun + if leadsToPass { h.state with onThread := true } task then 1 else 0 :=
    Ends.state (P := fun h' : Host S => h'.begun = _)
      (ends_runTask_interrupted (h := { h with state := { h.state with onThread := true } })
        rfl task)
  unfold startsPass
  rw [hbegun, hthread]
  cases leadsToPass h.state task <;> simp

/-! ## Refused requests -/

/-- **What a refused request leaves of a task.** It leads to a pass if it did before, unless
it is guarded by the handle that was given up. -/
theorem leadsToPass_rebuffed {r : Residents S} {number : Nat} {seat : ManagerSeat S} {m : Manager}
    {handles : Handles} {given : Option Handle} (hseat : r.managers.get? number = some seat)
    (hdown : m.shutDown = seat.manager.shutDown)
    (hcanceled : ∀ handle,
      handles.isCanceled handle = (r.handles.isCanceled handle || decide (given = some handle)))
    (task : Task S) :
    leadsToPass { r with
        managers := r.managers.update number fun s => { s with manager := m }
        handles } task
      = (leadsToPass r task && task.guards.all fun handle => decide (given ≠ some handle)) := by
  induction task with
  | scripted label script => rfl
  | check limiter => rfl
  | frame fade => rfl
  | guarded handle task ih =>
    unfold leadsToPass Task.guards
    rw [ih, hcanceled, List.all_cons, Bool.not_or, decide_not]
    ac_rfl
  | proxied proxy task ih =>
    unfold leadsToPass Task.guards
    rw [ih, Bool.and_assoc]
  | pass n =>
    unfold leadsToPass Task.guards
    rw [List.all_nil, Bool.and_true]
    by_cases heq : n = number
    · rw [heq, Roster.get?_update_of_some hseat, hseat, Option.map_some, Option.map_some, hdown]
      rfl
    · rw [Roster.get?_update_of_ne _ _ heq]
      rfl

/-- **At most one pass is lost**: the queue is what it was, and a task would start a pass if it
would have done so before, unless it is guarded by the handle that was given up. -/
structure LosesAtMost (given : Option Handle) (h h' : Host S) : Prop where
  queue : h'.queue = h.queue
  startsPass (task : Task S) : h'.startsPass task = true ↔
    h.startsPass task = true ∧ ∀ handle ∈ task.guards, given ≠ some handle

/-- A task that would start a pass is guarded by no handle that is canceled. -/
theorem isCanceled_of_startsPass {task : Task S} (hstarts : h.startsPass task = true)
    {handle : Handle} (hguards : handle ∈ task.guards) :
    h.state.handles.isCanceled handle = false := by
  rw [startsPass_eq] at hstarts
  induction task with
  | guarded outer task ih =>
    unfold leadsToPass at hstarts
    obtain ⟨houter, hinner⟩ := (Bool.and_eq_true _ _).mp hstarts
    rcases List.mem_cons.1 hguards with rfl | hguards
    · simpa using houter
    · exact ih hinner hguards
  | proxied proxy task ih =>
    unfold leadsToPass at hstarts
    exact ih ((Bool.and_eq_true _ _).mp hstarts).2 hguards
  | _ => cases hguards

/-- Nothing is lost if the handle that was given up, if any, was canceled before. -/
theorem LosesAtMost.startsPass_eq {given : Option Handle} {h' : Host S}
    (hloses : LosesAtMost given h h')
    (hcanceled : ∀ handle, given = some handle → h.state.handles.isCanceled handle = true)
    (task : Task S) : h'.startsPass task = h.startsPass task := by
  rw [Bool.eq_iff_iff, hloses.startsPass, and_iff_left_iff_imp]
  intro hstarts handle hguards hgiven
  exact absurd (hcanceled handle hgiven)
    (Bool.not_eq_true _ ▸ isCanceled_of_startsPass hstarts hguards)

/-- A host with another manager and other handles, as a request that was refused leaves it. -/
def reseated (h : Host S) (number : Nat) (m : Manager) (handles : Handles) : Host S :=
  { h with state := { h.state with
    managers := h.state.managers.update number fun s => { s with manager := m }
    handles } }

/-- What a refused request loses is what is guarded by the handle that it gives up. -/
theorem losesAtMost_reseated {number : Nat} {seat : ManagerSeat S} {m : Manager}
    {handles : Handles} {given : Option Handle} (hseat : h.state.managers.get? number = some seat)
    (hdown : m.shutDown = seat.manager.shutDown)
    (hcanceled : ∀ handle, handles.isCanceled handle
      = (h.state.handles.isCanceled handle || decide (given = some handle))) :
    LosesAtMost given h (h.reseated number m handles) where
  queue := rfl
  startsPass task := by
    have hleads : leadsToPass (h.reseated number m handles).state task = _ :=
      leadsToPass_rebuffed hseat hdown hcanceled task
    rw [startsPass_eq, startsPass_eq, hleads, Bool.and_eq_true, List.all_eq_true]
    simp only [decide_eq_true_iff]

/-- Changing a manager twice is changing it to what it is the second time. -/
theorem reseated_reseated (number : Nat) (m m' : Manager) (handles handles' : Handles) :
    (h.reseated number m handles).reseated number m' handles'
      = h.reseated number m' handles' := by
  have hmanagers : (h.state.managers.update number fun s => { s with manager := m }).update number
      (fun s => { s with manager := m' }) = h.state.managers.update number
        fun s => { s with manager := m' } := by
    unfold Roster.update
    rw [List.modify_modify_eq]
    rfl
  unfold reseated
  dsimp only
  rw [hmanagers]

/-- **A request that the runner refuses** comes to an answer, and nothing is changed by it but
the manager and the handles. -/
theorem ends_schedule_refused {number : Nat} {seat : ManagerSeat S}
    (hseat : h.state.managers.get? number = some seat) (hrefuses : h.queue.accepting = false)
    (immediate : Bool) :
    (schedule number immediate : Act S Unit).Ends h
      (fun _ h' => ∃ m handles, seat.manager.Rebuffed immediate h.state.handles m handles ∧
        h' = h.reseated number m handles)
      fun _ _ => False := by
  unfold schedule
  simp only [ends_bind, ends_seat?, hseat]
  cases hrequest : seat.manager.request immediate h.state.handles with
  | mk request rest =>
    obtain ⟨m, handles⟩ := rest
    have hseat' : (h.reseated number m handles).state.managers.get? number
        = some { seat with manager := m } := Roster.get?_update_of_some hseat _
    -- what the runner refused is taken back
    have hundone (hposts : request ≠ .covered) : (undoRequest number immediate : Act S Unit).Ends
        (h.reseated number m handles)
        (fun _ h' => ∃ m handles, seat.manager.Rebuffed immediate h.state.handles m handles ∧
          h' = h.reseated number m handles) fun _ _ => False := by
      unfold undoRequest
      simp only [ends_bind, ends_seat?, hseat', ends_residents, ends_keep]
      exact ⟨_, _, Manager.rebuffed_of_refused hrequest hposts,
        reseated_reseated number m _ handles _⟩
    simp only [ends_residents, hrequest, ends_keep]
    rcases Manager.request_cases hrequest with ⟨rfl, rfl, rfl, -⟩ | ⟨rfl, rfl, -⟩ | ⟨rfl, rfl, -⟩
    · exact ⟨_, _, Manager.rebuffed_of_covered (by rw [hrequest]), rfl⟩
    · unfold postVia
      rw [ends_bind, ends_post_refusing (by exact hrefuses)]
      exact hundone Manager.Request.noConfusion
    · unfold postVia
      rw [ends_bind, ends_post_refusing (by exact hrefuses)]
      exact hundone Manager.Request.noConfusion

/-- Setting a number of windows that is set already changes nothing, and asks for nothing. -/
theorem setWindows_of_same {number : Nat} {windows : Option Nat}
    (hsame : (h.state.managers.get? number).map (fun s => s.manager.windows)
      = some (Manager.normalWindows windows)) :
    (setWindows number windows : Act S Unit).on h = (.ok (), h) := by
  obtain ⟨seat, hseat, hwindows⟩ := Option.map_eq_some_iff.1 hsame
  rw [on_eq_ok_iff]
  unfold setWindows
  simp only [ends_bind, ends_seat?, hseat]
  rw [if_pos hwindows]
  exact ⟨trivial, rfl⟩

/-- **Setting a number of windows for which the runner refuses the pass.** -/
theorem ends_setWindows_refused {number : Nat} {seat : ManagerSeat S} {windows : Option Nat}
    (hseat : h.state.managers.get? number = some seat) (hrefuses : h.queue.accepting = false)
    (hchange : seat.manager.windows ≠ Manager.normalWindows windows) :
    (setWindows number windows : Act S Unit).Ends h
      (fun _ h' => ∃ m handles,
        { seat.manager with windows := Manager.normalWindows windows }.Rebuffed true
          h.state.handles m handles ∧ h' = h.reseated number m handles)
      fun _ _ => False := by
  unfold setWindows
  simp only [ends_bind, ends_seat?, hseat]
  rw [if_neg hchange, ends_bind, ends_changeManager]
  have hseat' : (h.state.managers.update number fun s =>
      { s with manager := { s.manager with windows := Manager.normalWindows windows } }).get? number
        = some { seat with manager :=
          { seat.manager with windows := Manager.normalWindows windows } } :=
    Roster.get?_update_of_some hseat _
  refine (ends_schedule_refused hseat' (by exact hrefuses) true).imp (fun _ h' => ?_) fun _ _ => id
  rintro ⟨m, handles, hrebuffed, rfl⟩
  refine ⟨m, handles, hrebuffed, ?_⟩
  unfold reseated Roster.update
  dsimp only
  rw [List.modify_modify_eq]
  rfl

/-- An immediate pass that is refused gives up no handle that was not canceled, if no delayed
pass waits. -/
theorem isCanceled_of_givenUp {m : Manager} {handles : Handles} {handle : Handle}
    (hidle : m.delayed.isPending handles = false) (hgiven : m.givenUp true handles = some handle) :
    handles.isCanceled handle = true := by
  rw [Manager.givenUp_true] at hgiven
  split at hgiven
  · cases hgiven
  · unfold Slot.isPending at hidle
    rw [hgiven] at hidle
    simpa using hidle

end Host

end Compositor
