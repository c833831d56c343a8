import Compositor.Proofs.Host.Coalescing

/-!
# Asking for passes

A request changes the manager, the handles and the queue in three writes, and if the
runner refuses the post a fourth one takes the first back. In between, what is waited
for and what waits in the queue are out of step by the one task that is on its way; at
the end they agree again, with the task accepted or not. Shutting down ends it: nothing
is waited for, and what still waits in the queue finds the gate shut.
-/

namespace Compositor.Host

open Compositor.Action

variable {S : Type} {Good : S → Prop} {R : Nat → Prop}

/-- What the only manager waits for is what waits in the queue, however many passes there
were. -/
abbrev InStep (Good : S → Prop) : Host S → Prop := Coalescing Good fun _ => True

/-! ## Requests -/

/-- A live pass that is waited for is posted, or the request for it is taken back. -/
theorem ends_postVia (h : Host S) (seat : ManagerSeat S) {p : PostedPass}
    (hC : Coalesced Good h.state.proxies h.state.handles h.state.stubs h.state.managers
      (p.task seat.proxy 0 :: h.queued) seat)
    (hup : seat.manager.shutDown = false) (hlive : p.isLive h.state.handles = true)
    (delay : Nanos) :
    (do unless ← postVia seat.proxy (p.guardedTask 0) delay do
        undoRequest 0 (decide (p = .now)) : Act S Unit).Ends h
      (fun _ => InStep Good) fun _ _ => True := by
  rw [ends_bind]
  refine ends_post fun accepted queue hpost => ?_
  rcases post_eq_ok hpost with ⟨rfl, hperm⟩ | ⟨rfl, rfl⟩
  · exact ⟨seat, hC.perm hperm, trivial⟩
  · have hrefused := hC.passes_cons.refused_eq hup hlive
    have hseat : h.state.managers.get? 0 = some seat := hC.get?_zero
    show (undoRequest 0 (decide (p = .now))).Ends h _ _
    unfold undoRequest
    simp only [ends_bind, ends_seat?, hseat, ends_residents, hrefused, ends_keep]
    exact ⟨_, hC.of_live hup hlive, trivial⟩

/-- **Asking for a pass.** -/
theorem keeps_schedule_inStep (number : Nat) (immediate : Bool) :
    (schedule number immediate).Keeps (InStep Good : Host S → Prop) := by
  rintro h ⟨seat, hC, -⟩
  unfold schedule
  simp only [ends_bind, ends_seat?]
  cases hfound : h.state.managers.get? number with
  | none => exact ⟨seat, hC, trivial⟩
  | some found =>
    obtain ⟨rfl, rfl⟩ := hC.eq_of_get? hfound
    cases hrequest : found.manager.request immediate h.state.handles with
    | mk request rest =>
      obtain ⟨m, handles⟩ := rest
      simp only [ends_bind, ends_residents, hrequest, ends_keep]
      rcases hC.passes.request hrequest with
        ⟨rfl, rfl, rfl⟩ | ⟨p, hposts, hup, hup', hpasses, hlive⟩
      · exact ⟨_, hC.update rfl hC.passes fun _ htask => hC.plain htask, trivial⟩
      · have hplain : ∀ task ∈ p.task found.proxy 0 :: h.queued, IsPlain Good found.proxy task := by
          intro task htask
          rcases List.mem_cons.1 htask with rfl | htask
          · exact .pass p
          · exact hC.plain htask
        rw [← List.filterMap_cons_some (Task.postedPass?_task found.proxy 0 p)] at hpasses
        have hC' := hC.update (hup'.trans hup.symm) hpasses hplain
        -- the manager and the handles are written; the task is not in the queue yet
        have hposted := ends_postVia { h with state := { h.state with
          managers := h.state.managers.update 0 fun s => { s with manager := m }
          handles } } { found with manager := m } hC' hup' hlive
        cases request with
        | covered => cases hposts
        | postNow =>
          cases hposts
          exact hposted 0
        | postDelayed handle =>
          cases hposts
          exact hposted m.delay

theorem keeps_setWindows_inStep (number : Nat) (windows : Option Nat) :
    (setWindows number windows).Keeps (InStep Good : Host S → Prop) := by
  refine (keeps_seat? number).bind fun found => ?_
  cases found with
  | none => exact .pure _
  | some seat =>
    dsimp only
    split
    · exact .pure _
    · exact (keeps_changeManager_sameRequests number fun _ => by exact ⟨rfl, rfl, rfl⟩).bind
        fun _ => keeps_schedule_inStep number true

/-! ## The end -/

/-- **Shutting the manager down.** Off the runner's thread this faults, with the manager
already shut down and the gate still open; so it does not come to an answer. -/
theorem keeps_shutdownManager_inStep (number : Nat) :
    (shutdownManager number).Keeps (InStep Good : Host S → Prop) := by
  rintro h ⟨seat, hC, -⟩
  unfold shutdownManager
  simp only [ends_bind, ends_seat?]
  cases hfound : h.state.managers.get? number with
  | none => exact ⟨seat, hC, trivial⟩
  | some found =>
    obtain ⟨rfl, rfl⟩ := hC.eq_of_get? hfound
    dsimp only
    split
    · exact ⟨found, hC, trivial⟩
    · next hup =>
      obtain ⟨gate, hgate, hopen⟩ := Option.map_eq_some_iff.1 hC.gate
      have hopen : gate.shutDown = false := by rw [hopen]; simpa using hup
      simp only [ends_bind, ends_residents, ends_keep]
      unfold shutdownProxy
      simp only [ends_bind, ends_residents, hgate, ends_change, ends_ofExcept]
      unfold Proxy.shutdown
      rw [hopen]
      cases h.state.onThread with
      | false => trivial
      | true => exact ⟨_, hC.shutDown hgate, trivial⟩

/-! ## Tracking groups -/

theorem keeps_addGroup_coalescing (number pid : Nat) :
    (addGroup number pid).Keeps (Coalescing Good R : Host S → Prop) := by
  refine (keeps_requireThread _).bind fun _ => (keeps_seat? number).bind fun found => ?_
  cases found with
  | none => exact .pure _
  | some seat =>
    refine (Keeps.ofExcept _).bind fun opened => ?_
    exact (keeps_changeManager_sameRequests number fun _ => by exact ⟨rfl, rfl, rfl⟩).bind
      fun _ => .pure _

theorem keeps_removeGroup_coalescing (number : Nat) (id : GroupId) :
    (removeGroup number id).Keeps (Coalescing Good R : Host S → Prop) :=
  (keeps_requireThread _).bind fun _ =>
    keeps_changeManager_sameRequests number fun _ => ⟨rfl, rfl, rfl⟩

theorem keeps_releaseHandle_coalescing (handle : GroupHandle) :
    (releaseHandle handle).Keeps (Coalescing Good R : Host S → Prop) := by
  refine keeps_residents.bind fun r => ?_
  split
  · exact keeps_removeGroup_coalescing _ _
  · exact .pure _

/-- A report leaves the requests of a manager alone. -/
theorem sameRequests_report (m : Manager) (id : GroupId) (old new : Nat) :
    m.SameRequests (m.report id old new).2 := by
  unfold Manager.report
  dsimp only
  split
  · exact ⟨rfl, rfl, rfl⟩
  · split <;> exact ⟨rfl, rfl, rfl⟩

theorem keeps_reportGroup_inStep (number : Nat) (id : GroupId) (old new : Nat) :
    (reportGroup number id old new).Keeps (InStep Good : Host S → Prop) := by
  refine (keeps_requireThread _).bind fun _ => ?_
  rintro h ⟨seat, hC, -⟩
  simp only [ends_bind, ends_seat?]
  cases hfound : h.state.managers.get? number with
  | none => exact ⟨seat, hC, trivial⟩
  | some found =>
    obtain ⟨rfl, rfl⟩ := hC.eq_of_get? hfound
    have hsame := sameRequests_report found.manager id old new
    have hreported : InStep Good { h with state := { h.state with
        managers := h.state.managers.update 0 fun s =>
          { s with manager := (found.manager.report id old new).2 } } } :=
      ⟨_, hC.update hsame.shutDown (hC.passes.congr hsame) fun _ htask => hC.plain htask, trivial⟩
    refine Keeps.bind (Keeps.ofExcept _) (fun calls => ?_) _ hreported
    split
    · exact keeps_schedule_inStep 0 false
    · exact .pure _

theorem keeps_reportHandle_inStep (handle : GroupHandle) (old new : Nat) :
    (reportHandle handle old new).Keeps (InStep Good : Host S → Prop) := by
  refine keeps_residents.bind fun r => ?_
  split
  · exact keeps_reportGroup_inStep _ _ old new
  · exact .pure _

end Compositor.Host
