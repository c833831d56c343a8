import Compositor.Proofs.Host.Allotment
import Compositor.Proofs.Scenario.Enduring

/-!
# A lost check is never made up for

A limiter posts a check when it is started, and each check that reaches its targets posts the
next one. If the runner refuses one of them the limiter is active and has no check on its way.
It is expected that it can be started again, then. It cannot: only an idle limiter is started,
and one that is active never becomes idle again. So it stays without a check whatever else is
done, and answers that it is active until somebody stops it.
-/

namespace Compositor.Step

open Compositor.Action Host

variable {h h' : Host Script} {steps : List Step}

/-- **Every step takes limiters forward**, from wherever one looks. -/
theorem preserves_exec_afterwards (fuel : Nat) (step : Step) (base : Host Script) :
    (exec fuel step).Preserves (Afterwards base) (Afterwards base) :=
  preserves_exec_enduring enduring_afterwards (fun _ hrun => callsBack_afterwards hrun) fuel step
    base

theorem Course.afterwards (hcourse : Course h steps h') : Afterwards h h' :=
  hcourse.preserves (fun fuel step => preserves_exec_afterwards fuel step h) (.refl h)

/-- **Every step keeps the account of checks**, whatever is in hand while it is done. -/
theorem preserves_exec_allotted (bound : Nat → Nat) (fuel : Nat) (step : Step) (hand : List Nat) :
    (exec fuel step).Preserves (Allotted bound hand) (Allotted bound hand) :=
  preserves_exec_enduring (enduring_allotted bound) (fun _ hrun => callsBack_allotted hrun) fuel
    step hand

theorem Course.allotted {bound : Nat → Nat} (hcourse : Course h steps h')
    (hA : Allotted bound [] h) : Allotted bound [] h' :=
  hcourse.preserves (fun fuel step => preserves_exec_allotted bound fuel step []) hA

/-- Each limiter is allotted one check. -/
theorem Course.allotted_of_new {runner : String} {platform : Platform}
    (hcourse : Course (Host.new runner platform) steps h) : Allotted (fun _ => 1) [] h := by
  refine hcourse.allotted ⟨fun _ => Nat.zero_le 1, fun _ => Nat.one_pos, fun {name task} => ?_, ?_⟩
  · exact nofun
  · exact .empty

/-- **A limiter that has begun never has more checks in the queue than it has now.** -/
theorem Course.checksIn_le {bound : Nat → Nat} (hcourse : Course h steps h')
    (hA : Allotted bound [] h) {number : Nat} {l : Limiter}
    (hl : h.state.limiters.get? number = some l) (hbegun : l.phase ≠ .idle) :
    checksIn h'.queue number ≤ checksIn h.queue number := by
  have hwithin := (hcourse.allotted (hA.tighten hl hbegun)).within number
  rwa [if_pos rfl] at hwithin

/-- The next task is run, and it is a check. -/
theorem ends_runNext_check {hand : List Nat} {bound : Nat → Nat} (hA : Allotted bound hand h)
    {task : Task Script} {queue : TaskQueue (Task Script)} {number : Nat}
    (hpop : h.queue.popNext = some (task, queue)) (hchecks : task.checks number = true)
    (fuel : Nat) :
    (exec fuel .runNext).Ends h (fun _ => Settled bound hand number) fun _ => Allotted bound hand := by
  cases fuel with
  | zero => exact hA
  | succ fuel =>
    obtain ⟨q, rest, hpending, rfl, rfl⟩ := TaskQueue.popNext_eq_some.1 hpop
    have hrun (hand : List Nat) (script : Script) : (script.forM fun inner => do
        note inner (← exec fuel inner) : Act Script PUnit).Preserves (Allotted bound hand)
          (Allotted bound hand) :=
      .forM fun inner _ => (preserves_exec_allotted bound fuel inner hand).bind fun _ =>
        (enduring_allotted bound hand).emit rfl rfl rfl
    rw [exec, perform]
    unfold EventLoop.runNext
    simp only [ends_bind, ends_get, hpop, ends_modify]
    exact (ends_runTask_inHand hrun hchecks (hA.takeCheck hpending hchecks)).imp
      (fun _ _ hsettled => hsettled) fun _ _ hA => hA

/-- **A check that is lost is never made up for.** Whatever course a new host took, each limiter
has one check in the queue at most, and none while it is idle. If it is idle it can be started,
and is active then; it has a check in the queue exactly if the runner took it. When its check
has its turn and the runner refuses in the end, no check is left in the queue.

Once it has begun, and has no check in the queue, it never has one again, in whatever course of
steps. To start it changes nothing, whether the runner refuses or not; and it is active, as long
as its gate is open, unless it has stopped. -/
theorem lost_check_is_never_made_up_for {runner : String} {platform : Platform}
    (hcourse : Course (Host.new runner platform) steps h) {number : Nat} {l : Limiter}
    (hl : h.state.limiters.get? number = some l) :
    checksIn h.queue number ≤ 1 ∧
    (l.phase = .idle → checksIn h.queue number = 0 ∧
      ∃ h', (Host.startLimiter number).on h = (.ok (), h') ∧
        h'.state.limiters.get? number = some { l with phase := .active } ∧
        checksIn h'.queue number = if h.queue.accepting then 1 else 0) ∧
    (∀ task queue, h.queue.popNext = some (task, queue) → task.checks number = true → ∀ fuel,
      (exec fuel .runNext).Ends h
        (fun _ h' => h'.queue.accepting = false → checksIn h'.queue number = 0) fun _ _ => True) ∧
    (l.phase ≠ .idle → checksIn h.queue number = 0 → ∀ steps' h', Course h steps' h' →
      checksIn h'.queue number = 0 ∧ (Host.startLimiter number).on h' = (.ok (), h') ∧
      ∃ l', h'.state.limiters.get? number = some l' ∧ l.Becomes l' ∧
        (limiterIsActive h'.state number = true ↔ l'.phase ≠ .stopped ∧
          (h'.state.proxies.get? l.proxy).map Proxy.shutDown = some false)) := by
  have hA := hcourse.allotted_of_new
  refine ⟨hA.within number, fun hidle => ?_, fun task queue hpop hchecks fuel => ?_,
    fun hbegun hlost steps' h' hfrom => ?_⟩
  · have hnone := hA.eq_zero_of_idle hl hidle rfl
    refine ⟨hnone, _, startLimiter_of_idle hl hidle hA.formed.now,
      Roster.get?_update_of_some hl _, ?_⟩
    dsimp only
    split
    · rw [checksIn_accept, Task.checks_check, beq_self_eq_true, if_pos rfl]
      exact congrArg (· + 1) hnone
    · exact hnone
  · refine (ends_runNext_check hA hpop hchecks fuel).imp (fun _ h' hsettled hrefuses => ?_)
      fun _ _ _ => trivial
    have hwithin := (hsettled.2 hrefuses).within number
    rw [List.count_cons_self] at hwithin
    omega
  · obtain ⟨l', hl', hbecomes⟩ := hfrom.afterwards.stays hl
    have hbegun' := hbecomes.begun hbegun
    have hlost' := Nat.le_zero.1 (hlost ▸ hfrom.checksIn_le hA hl hbegun)
    refine ⟨hlost', startLimiter_of_begun hl' hbegun', l', hl', hbecomes, ?_⟩
    rw [← hbecomes.proxy]
    exact limiterIsActive_iff_of_begun hl' hbegun'

/-- A limiter is started while the runner refuses posts, which it does not do for long. -/
def snubbed : List Step :=
  [.newProxy "io", .newClient "ui" [], .newContext "tab" 5 [],
    .newLimiter "lim" "tab" "ui" "io" 16, .accept false, .startLimiter "lim", .accept true]

/-- However often the limiter is started then, and throttled at once, it stays without a check, and
answers that it is active. -/
theorem lost_check_is_never_made_up_for_snubbed :
    ∃ h h' l, Course (Host.new "main" .desktop) snubbed h ∧
      h.state.limiters.get? 0 = some l ∧ l.phase = .active ∧
      Course h [.startLimiter "lim", .limitNow "lim", .startLimiter "lim", .advance 64] h' ∧
      h'.queue.accepting = true ∧ checksIn h'.queue 0 = 0 ∧
      (Host.startLimiter 0).on h' = (.ok (), h') ∧ limiterIsActive h'.state 0 = true := by
  have hcourse := course_endOf 9 snubbed (Host.new "main" .desktop)
  have hfound : (endOf 9 snubbed (Host.new "main" .desktop)).state.limiters.get? 0
      = some ⟨5, 0, 16, .active, some ⟨0, 0⟩⟩ := by decide +kernel
  have hlost : checksIn (endOf 9 snubbed (Host.new "main" .desktop)).queue 0 = 0 := by
    decide +kernel
  have hlast : (fun h' : Host Script => (h'.queue.accepting,
      (h'.state.limiters.get? 0).map Limiter.phase,
      (h'.state.proxies.get? 0).map Proxy.shutDown))
        (endOf 9 [.startLimiter "lim", .limitNow "lim", .startLimiter "lim", .advance 64]
          (endOf 9 snubbed (Host.new "main" .desktop)))
      = (true, some .active, some false) := by
    decide +kernel
  generalize endOf 9 snubbed (Host.new "main" .desktop) = h at hcourse hfound hlost hlast
  have hfrom := course_endOf 9
    [.startLimiter "lim", .limitNow "lim", .startLimiter "lim", .advance 64] h
  generalize endOf 9 [.startLimiter "lim", .limitNow "lim", .startLimiter "lim", .advance 64] h
    = h' at hfrom hlast
  obtain ⟨haccepts, hlast⟩ := Prod.mk.inj hlast
  obtain ⟨hphase, hopen⟩ := Prod.mk.inj hlast
  obtain ⟨-, -, -, hwedged⟩ := lost_check_is_never_made_up_for hcourse hfound
  obtain ⟨hnone, hstart, l', hl', -, hactive⟩ := hwedged nofun hlost _ _ hfrom
  rw [hl'] at hphase
  have hup : l'.phase ≠ .stopped := by
    rw [Option.some.inj hphase]
    exact nofun
  exact ⟨h, h', _, hcourse, hfound, rfl, hfrom, haccepts, hnone, hstart, hactive.2 ⟨hup, hopen⟩⟩

/-- **A start does not resume a limiter whose check was refused**, though the runner accepts posts
again and both targets are there: nothing is posted, and the limiter answers that it is active. -/
theorem nothing_resumed_by_start :
    ∃ h h' reply, Run (Host.new "main" .desktop) snubbed h ∧ h.queue.accepting = true ∧
      ((h.state.limiters.get? 0).bind Limiter.targets).map (areAlive h.state) = some true ∧
      limiterIsActive h.state 0 = true ∧ checksIn h.queue 0 = 0 ∧
      Does h (.startLimiter "lim") reply h' ∧
      limiterIsActive h'.state 0 = true ∧ checksIn h'.queue 0 = 0 := by
  obtain ⟨h, hrun, haccepts, halive, hactive, hnone, hlast⟩ := Run.exists_of_after? 9 snubbed
    (h := Host.new "main" .desktop)
    (P := fun h => h.queue.accepting = true ∧
      ((h.state.limiters.get? 0).bind Limiter.targets).map (areAlive h.state) = some true ∧
      limiterIsActive h.state 0 = true ∧ checksIn h.queue 0 = 0 ∧
      (after? 9 [.startLimiter "lim"] h).map (fun h' =>
        decide (limiterIsActive h'.state 0 = true ∧ checksIn h'.queue 0 = 0)) = some true)
    (by decide +kernel)
  obtain ⟨h', hstarted, hactive', hnone'⟩ := Run.exists_of_after? _ _ hlast
  cases hstarted with
  | cons hdoes hrest =>
    cases hrest
    exact ⟨h, h', _, hrun, haccepts, halive, hactive, hnone, hdoes, hactive', hnone'⟩

end Compositor.Step
