import Compositor.Proofs.Host.Afterwards

/-!
# No more checks than are allotted

A runner may refuse a check, and its queue may be cleared. So unlike in a chain that nobody
breaks, a limiter that is running may have no check on its way. It never has more of them than
it had, though: only its first start adds one to those in the queue and in hand, and a check in
hand puts back one at most. This is an account that every change of a host keeps (`Allotted`),
whatever bound there is to begin with; so a limiter that has begun and has lost its check never
has one again.
-/

namespace Compositor

namespace Host

open Compositor.Action

variable {S : Type}

/-- **No limiter has more checks on its way than are allotted to it**, in the queue and in hand
together, and one that was not started has less, so that it may be. Nothing that is kept beside
the queue is a check. -/
structure Allotted (bound : Nat → Nat) (hand : List Nat) (h : Host S) : Prop where
  within (n : Nat) : checksIn h.queue n + hand.count n ≤ bound n
  unstarted {n : Nat} (hn : IsUnstarted h.state.limiters n) :
    checksIn h.queue n + hand.count n < bound n
  held {name : String} {task : Task S} (htask : h.state.heldTasks.find? name = some task) :
    task.ChecksNone
  formed : h.queue.Formed

/-- The check of a limiter that was in hand is settled: it is made up for by the next one, or it
is let go of. If the runner refuses in the end it was let go of. -/
def Settled (bound : Nat → Nat) (hand : List Nat) (number : Nat) (h : Host S) : Prop :=
  Allotted bound hand h ∧ (h.queue.accepting = false → Allotted bound (number :: hand) h)

/-- A limiter that is not started later on was not started before. -/
theorem Afterwards.isUnstarted {h h' : Host S} (hafter : Afterwards h h') {n : Nat}
    (hn : IsUnstarted h'.state.limiters n) : IsUnstarted h.state.limiters n := by
  intro l hl
  obtain ⟨l', hl', hbecomes⟩ := hafter.stays hl
  by_contra hbegun
  exact hbecomes.begun hbegun (hn l' hl')

variable {bound : Nat → Nat} {hand hand' : List Nat} {h : Host S} {number : Nat}

namespace Allotted

/-- Checks may leave the queue and the hand, or go from one to the other. -/
theorem requeue (hA : Allotted bound hand h) {queue : TaskQueue (Task S)} (hformed : queue.Formed)
    (hcount : ∀ n, checksIn queue n + hand'.count n ≤ checksIn h.queue n + hand.count n) :
    Allotted bound hand' { h with queue } where
  within n := Nat.le_trans (hcount n) (hA.within n)
  unstarted hn := Nat.lt_of_le_of_lt (hcount _) (hA.unstarted hn)
  held := hA.held
  formed := hformed

/-- Limiters may go forward, and there may be more of them. -/
theorem relimit (hA : Allotted bound hand h) {limiters : Roster Limiter}
    (hafter : Afterwards h { h with state := { h.state with limiters } }) :
    Allotted bound hand { h with state := { h.state with limiters } } :=
  { hA with unstarted := fun hn => hA.unstarted (hafter.isUnstarted hn) }

/-- A check in hand is let go of. -/
theorem letGo (hA : Allotted bound (number :: hand) h) : Allotted bound hand h :=
  hA.requeue hA.formed fun _ => Nat.add_le_add_left (List.count_le_count_cons ..) _

theorem settled (hA : Allotted bound (number :: hand) h) : Settled bound hand number h :=
  ⟨hA.letGo, fun _ => hA⟩

/-- A check that is taken out of the queue is in hand. -/
theorem takeCheck (hA : Allotted bound hand h) {q : Pending (Task S)}
    {rest : List (Pending (Task S))} (hpending : h.queue.pending = q :: rest)
    (hchecks : q.task.checks number = true) :
    Allotted bound (number :: hand) { h with queue := h.queue.without q rest } := by
  refine hA.requeue (hA.formed.without hpending) fun n => ?_
  rw [checksIn_without hpending n, List.count_cons]
  by_cases heq : number = n
  · rw [if_pos (beq_iff_eq.2 heq), if_pos (heq ▸ hchecks)]
    omega
  · rw [if_neg (mt beq_iff_eq.1 heq)]
    omega

/-- A check in hand is put back as the next one. -/
theorem putBack (hA : Allotted bound (number :: hand) h) (proxy : Nat) {delay : Nanos}
    (hdue : h.queue.now + delay ≤ longestSpan) :
    Allotted bound hand
      { h with queue := h.queue.accept (.proxied proxy (.check number)) delay } := by
  refine hA.requeue (hA.formed.accept _ hdue) fun n => ?_
  rw [checksIn_accept, Task.checks_check, List.count_cons]
  omega

/-- An idle limiter that is allotted one check has none on its way. -/
theorem eq_zero_of_idle (hA : Allotted bound hand h) {l : Limiter}
    (hl : h.state.limiters.get? number = some l) (hidle : l.phase = .idle)
    (hone : bound number = 1) : checksIn h.queue number = 0 := by
  have hlt := hA.unstarted (n := number) fun l' hl' => by
    obtain rfl := Option.some.inj (hl.symm.trans hl')
    exact hidle
  omega

/-- **What a limiter that has begun has on its way is all that it will have.** -/
theorem tighten (hA : Allotted bound hand h) {l : Limiter}
    (hl : h.state.limiters.get? number = some l) (hbegun : l.phase ≠ .idle) :
    Allotted (fun n => if n = number then checksIn h.queue n + hand.count n else bound n) hand h :=
  { hA with
    within := fun _ => by
      split
      · exact Nat.le_refl _
      · exact hA.within _
    unstarted := fun {n} hn => by
      have hne : n ≠ number := by
        rintro rfl
        exact hbegun (hn l hl)
      rw [if_neg hne]
      exact hA.unstarted hn }

/-- No facet of the host changed. -/
theorem aside {h' : Host S} (hA : Allotted bound hand h) (hsame : h'.facets = h.facets) :
    Allotted bound hand h' := by
  have hheld : h'.state.heldTasks = h.state.heldTasks := congrArg Facets.heldTasks hsame
  have hqueue : h'.queue = h.queue := congrArg Facets.queue hsame
  refine ⟨fun n => hqueue ▸ hA.within n, fun {n} hn => hqueue ▸ hA.unstarted ?_,
    fun htask => hA.held (hheld ▸ htask), hqueue ▸ hA.formed⟩
  exact (Afterwards.aside hsame).isUnstarted hn

/-- An idle limiter was started, and its first check posted. -/
theorem startedPosting (hA : Allotted bound hand h) {l : Limiter}
    (hl : h.state.limiters.get? number = some l) (hidle : l.phase = .idle)
    (hdue : h.queue.now + 0 ≤ longestSpan) :
    Allotted bound hand { h with
      state := { h.state with
        limiters := h.state.limiters.update number fun _ => { l with phase := .active } }
      queue := h.queue.accept (.proxied l.proxy (.check number)) 0 } := by
  have hstarted := hA.relimit (.started _ hl hidle)
  refine ⟨fun n => ?_, fun {n} hn => ?_, hA.held, hA.formed.accept _ hdue⟩
  · rw [checksIn_accept, Task.checks_check]
    by_cases heq : number = n
    · -- there was room for one more
      have hroom := hA.unstarted (n := n) fun l' hl' => by
        obtain rfl := Option.some.inj (hl.symm.trans (heq ▸ hl'))
        exact hidle
      rw [if_pos (beq_iff_eq.2 heq)]
      omega
    · rw [if_neg (mt beq_iff_eq.1 heq)]
      exact hA.within n
  · have hne : ¬ number = n := by
      rintro rfl
      cases hn _ (Roster.get?_update_of_some hl _)
    rw [checksIn_accept, Task.checks_check, if_neg (mt beq_iff_eq.1 hne)]
    exact hstarted.unstarted hn

end Allotted

/-- **Every single change of a host keeps the account.** -/
theorem enduring_allotted (bound : Nat → Nat) (hand : List Nat) :
    Enduring (S := S) (Allotted bound hand) (Allotted bound hand) where
  halted _ hA := hA
  aside := .aside
  haltedAside := .aside
  seen hA _ _ _ _ := { hA with }
  posted hA _ htask _ hformed :=
    hA.requeue (hA.formed.accept _ hformed) fun n => by
      rw [checksIn_accept, htask.1 n]
      exact Nat.le_refl _
  kept hA name _ htask :=
    { hA with
      held := fun {other _} hother => by
        by_cases heq : other = name
        · rw [heq, Table.find?_insert_self] at hother
          cases hother
          exact htask.1
        · rw [Table.find?_insert_of_ne _ _ heq] at hother
          exact hA.held hother }
  released hA _ := { hA with held := fun htask => hA.held (Table.find?_of_erase htask) }
  gated hA _ := { hA with }
  barMade hA _ _ := { hA with }
  painted hA _ _ _ _ := { hA with }
  started hA _ _ hl hidle := hA.relimit (.started _ hl hidle)
  startedPosting hA _ _ hl hidle hformed := hA.startedPosting hl hidle hformed
  stopped hA _ := hA.relimit (.updateLimiter _ _ fun l _ => l.becomes_stop)
  made hA _ _ hgains hidle := hA.relimit ((enduring_afterwards _).made (.refl _) hgains hidle)
  unnamed hA _ := hA.relimit ((enduring_afterwards _).unnamed (.refl _) _)
  contextMade hA _ _ := { hA with }
  contextDropped hA _ := { hA with }
  clientMade hA _ _ := { hA with }
  clientDropped hA _ := { hA with }
  evolved hA _ := { hA with }
  misreported hA _ _ _ _ := { hA with }
  managerMade hA _ _ _ := { hA with }
  managerDropped hA _ := { hA with }
  restubbed hA _ := { hA with }
  fadeSeen hA _ _ _ := { hA with }
  framePosted hA _ _ hformed :=
    hA.requeue (hA.formed.accept _ hformed) fun n => by
      rw [checksIn_accept]
      exact Nat.le_refl _
  barChanged hA _ _ := { hA with }
  moved hA _ _ hformed := hA.requeue ⟨hformed, hA.formed.due⟩ fun _ => Nat.le_refl _
  taken hA _ _ hpending := hA.requeue (hA.formed.without hpending) fun n => by
    rw [checksIn_without hpending n]
    omega
  cleared hA := hA.requeue ⟨hA.formed.now, nofun⟩ fun n =>
    Nat.add_le_add_right (Nat.zero_le _) _
  accepts hA _ := hA.requeue ⟨hA.formed.now, hA.formed.due⟩ fun _ => Nat.le_refl _

/-! ## What calls back -/

section Callbacks

variable {run : S → Act S Unit}
  (hrun : ∀ hand script, (run script).Preserves (Allotted bound hand) (Allotted bound hand))

include hrun

theorem preserves_limitNow_allotted (hand : List Nat) (number : Nat) :
    (limitNow run number).Preserves (Allotted bound hand) (Allotted bound hand) := by
  have hP := enduring_allotted (S := S) bound hand
  exact preserves_limitNow (fun _ => preserves_callTargets hP.holding
    (fun _ _ hA _ => { hA with }) (fun _ _ hA _ => { hA with }) (hrun hand))
    fun _ hA => hP.stopped hA number

/-- **A check in hand** posts one check at most. -/
theorem ends_runCheck_allotted (hA : Allotted bound (number :: hand) h) :
    (runCheck run number).Ends h (fun _ => Settled bound hand number)
      fun _ => Allotted bound hand := by
  unfold runCheck
  rw [ends_bind]
  refine (preserves_limitNow_allotted hrun _ number h hA).imp (fun reached h' hA' => ?_)
    fun _ _ hA' => hA'.letGo
  cases reached with
  | false => exact hA'.settled
  | true =>
    rw [if_pos rfl, ends_bind, ends_residents]
    cases hl : h'.state.limiters.get? number with
    | none => exact hA'.settled
    | some l =>
      unfold postCheck
      simp only [ends_bind, ends_residents, hl]
      refine (ends_map ..).2 (ends_post_cases (fun haccepts hdue =>
        ⟨hA'.putBack l.proxy hdue, fun hrefuses => ?_⟩) hA'.settled fun _ => hA'.letGo)
      cases haccepts.symm.trans hrefuses

/-- What is in hand may wait behind guards and gates. -/
theorem ends_runTask_inHand {task : Task S} (hchecks : task.checks number = true)
    (hA : Allotted bound (number :: hand) h) :
    (runTask run task).Ends h (fun _ => Settled bound hand number) fun _ => Allotted bound hand := by
  induction task with
  | check other =>
    obtain rfl := beq_iff_eq.1 hchecks
    exact ends_runCheck_allotted hrun hA
  | guarded handle task ih =>
    rw [runTask, ends_bind, ends_residents]
    cases h.state.handles.isCanceled handle with
    | true => exact hA.settled
    | false => exact ih hchecks
  | proxied proxy task ih =>
    rw [ends_runTask_proxied]
    split
    · exact ih hchecks
    · exact Allotted.settled { hA with }
  | _ => cases hchecks

/-- Passes, checks and tasks keep the account if scripts do. -/
theorem callsBack_allotted (hand : List Nat) :
    CallsBack run (Allotted bound hand) (Allotted bound hand) := by
  have hP := enduring_allotted (S := S) bound hand
  have hmanage := hP.manage (hrun hand) (fun _ _ _ _ hA => { hA with }) (fun _ _ hA => { hA with })
    fun _ _ hA => { hA with }
  refine ⟨hmanage, preserves_limitNow_allotted hrun hand, fun hA hpop => ?_, fun hA htask => ?_⟩
  · obtain ⟨q, rest, hpending, rfl, rfl⟩ := TaskQueue.popNext_eq_some.1 hpop
    by_cases hcheck : ∃ number, q.task.checks number = true
    · obtain ⟨number, hchecks⟩ := hcheck
      exact (ends_runTask_inHand hrun hchecks (hA.takeCheck hpending hchecks)).imp
        (fun _ _ hsettled => hsettled.1) fun _ _ hA => hA
    · exact hP.runTask (hrun hand) hmanage (fun number hchecks => absurd ⟨number, hchecks⟩ hcheck)
        _ (hP.taken hA hpending)
  · have hnone := hA.held htask
    exact hP.runTask (hrun hand) hmanage
      (fun number hchecks => nomatch (hnone number).symm.trans hchecks) _ (hP.released hA _)

end Callbacks

end Host

end Compositor
