import Compositor.Proofs.Scenario.Allotment

/-!
# What a limiter that has stopped still does

A limiter is stopped by somebody, or stops by itself when it finds one of its targets gone. From
then on it is *inert*: it cannot be started, it throttles nobody, and the check that may still
be in the queue calls nobody and posts nothing. No step and no callback changes that.

But stopping does not reach into a check that is under way. If the limiter is stopped by the
context that it is calling, it goes on to tell the client, and posts its next check.
-/

namespace Compositor

namespace Host

open Compositor.Action

variable {S : Type}

/-- The limiter of a number has stopped. -/
def HasStopped (h : Host S) (number : Nat) : Prop :=
  ∃ l, h.state.limiters.get? number = some l ∧ l.phase = .stopped

/-- **A limiter does nothing any more**, since some time: to start it or to throttle changes
nothing, a check of it at most counts as dropped by a gate, there are no more such checks in the
queue than there were, and whatever calls were seen are the doing of other limiters. -/
structure Inert (base h : Host S) (number : Nat) : Prop where
  stopped : HasStopped h number
  start : (startLimiter number).on h = (.ok (), h)
  limitNow (run : S → Act S Unit) : (limitNow run number).on h = (.ok false, h)
  check {task : Task S} (hchecks : task.checks number = true) (run : S → Act S Unit) :
    ∃ proxies, (runTask run task).on h = (.ok (), { h with state := { h.state with proxies } })
  checks : checksIn h.queue number ≤ checksIn base.queue number
  calls : ∃ news, h.state.events = news ++ base.state.events ∧
    ∀ e ∈ news, e.isCall = true → ∃ other, other ≠ number ∧ IsCallOf base h other e

/-- A limiter that has stopped is inert from then on. -/
theorem Afterwards.inert {base h : Host S} (hafter : Afterwards base h) {number : Nat}
    (hstopped : HasStopped base number) : Inert base h number := by
  obtain ⟨l, hl, hphase⟩ := hstopped
  obtain ⟨l', hl', hbecomes⟩ := hafter.stays hl
  have hphase' := hbecomes.stopped hphase
  obtain ⟨news, hevents, hnews⟩ := hafter.seen
  exact
  { stopped := ⟨l', hl', hphase'⟩
    start := startLimiter_of_begun hl' (by rw [hphase']; exact nofun)
    limitNow := limitNow_of_ne_active hl' (by rw [hphase']; exact nofun)
    check := fun hchecks => runTask_of_stopped hchecks hl' hphase'
    checks := hafter.checks hl hphase
    calls := by
      refine ⟨news, hevents, fun e he hcalled => ?_⟩
      obtain ⟨other, hof⟩ := hnews e he hcalled
      refine ⟨other, ?_, hof⟩
      rintro rfl
      exact (hof.past hl).1 hphase }

end Host

namespace Step

open Compositor.Action Host

/-- **A limiter that has stopped is inert for good.** No course of a new host leaves more than one
check of it in the queue. It stops when it is told to; and if it is active and finds one of its
targets gone, be it that it throttles at once or that its check has its turn, then it calls
nobody, posts nothing and stops.

Once it has stopped it is inert, at any later time: at the end of every course of steps, and
while a step is done, or the rest of a pump, with whatever callbacks take limiters forward as
all steps do. -/
theorem stopped_limiter_is_inert (number : Nat) :
    (∀ runner platform steps h, Course (Host.new runner platform) steps h →
      checksIn h.queue number ≤ 1) ∧
    (∀ (h : Host Script) l, h.state.limiters.get? number = some l →
      (∃ h', (Host.stopLimiter number).on h = (.ok (), h') ∧ HasStopped h' number) ∧
      (l.phase = .active → (∀ t, l.targets = some t → areAlive h.state t = false) →
        ∀ run, ∃ h', (Host.limitNow run number).on h = (.ok false, h') ∧
          (Host.runCheck run number).on h = (.ok (), h') ∧ HasStopped h' number ∧
          h'.state.events = h.state.events ∧ h'.queue = h.queue)) ∧
    ∀ base : Host Script, HasStopped base number →
      (∀ h, Afterwards base h → Inert base h number) ∧
      (∀ steps h, Course base steps h → Afterwards base h) ∧
      ∀ run : Script → Act Script Unit,
        (∀ base script, (run script).Preserves (Afterwards base) (Afterwards base)) →
          (∀ fuel step, (perform run fuel step).Preserves (Afterwards base) (Afterwards base)) ∧
          ∀ deadline fuel, (EventLoop.runDue (runTask run) deadline fuel).Preserves
            (Afterwards base) (Afterwards base) := by
  refine ⟨fun runner platform steps h hcourse => ?_, fun h l hl => ⟨?_, fun hactive hgone run => ?_⟩,
    fun base hstopped => ⟨fun h hafter => hafter.inert hstopped, fun steps h hcourse =>
      hcourse.afterwards, fun run hrun => ⟨fun fuel step => ?_, fun deadline fuel h hh => ?_⟩⟩⟩
  · exact hcourse.allotted_of_new.within number
  · exact ⟨_, rfl, l.stop, Roster.get?_update_of_some hl _, rfl⟩
  · have hlimit := limitNow_of_orphaned hl hactive hgone run
    exact ⟨_, hlimit, runCheck_of_limitNow hlimit, ⟨l.stop, Roster.get?_update_of_some hl _, rfl⟩,
      rfl, rfl⟩
  · exact preserves_perform_enduring (enduring_afterwards base) (callsBack_afterwards hrun base)
      fuel step
  · exact (EventLoop.settles_runDue_or (fun _ hh => hh) deadline (fun _ _ _ hh hpop =>
      (callsBack_afterwards hrun base).due hh (TaskQueue.popNext_of_popDue hpop)) fuel hh).imp
        (fun _ _ hsettled => hsettled.1) fun _ _ hh => hh

/-- A limiter is stopped while its second check is in the queue. -/
def halfway : List Step :=
  [.newProxy "io", .newClient "ui" [], .newContext "tab" 5 [],
    .newLimiter "lim" "tab" "ui" "io" 16, .startLimiter "lim", .runUntilIdle, .stopLimiter "lim"]

/-- It is started again, throttles, and the check in the queue has its turn; nobody is called. -/
theorem stopped_limiter_is_inert_halfway :
    ∃ h h', Course (Host.new "main" .desktop) halfway h ∧ checksIn h.queue 0 = 1 ∧
      HasStopped h 0 ∧ Course h [.startLimiter "lim", .limitNow "lim", .advance 64] h' ∧
      Inert h h' 0 := by
  have hcourse := course_endOf 9 halfway (Host.new "main" .desktop)
  have hfound : (endOf 9 halfway (Host.new "main" .desktop)).state.limiters.get? 0
      = some ⟨5, 0, 16, .stopped, none⟩ := by decide +kernel
  have hone : checksIn (endOf 9 halfway (Host.new "main" .desktop)).queue 0 = 1 := by
    decide +kernel
  generalize endOf 9 halfway (Host.new "main" .desktop) = h at hcourse hfound hone
  have hstopped : HasStopped h 0 := ⟨_, hfound, rfl⟩
  have hfrom := course_endOf 9 [.startLimiter "lim", .limitNow "lim", .advance 64] h
  obtain ⟨-, -, hinert⟩ := stopped_limiter_is_inert 0
  obtain ⟨hafter, hlater, -⟩ := hinert h hstopped
  exact ⟨h, _, hcourse, hone, hstopped, hfrom, hafter _ (hlater _ _ hfrom)⟩

/-- A limiter whose context stops it as soon as it is made to wait. -/
def reluctant : List Step :=
  [.newProxy "io", .newClient "ui" [], .newContext "tab" 5 [.stopLimiter "lim"],
    .newLimiter "lim" "tab" "ui" "io" 16, .startLimiter "lim"]

/-- **A check that is under way goes on when its limiter is stopped.** The context is made to wait
and stops the limiter; after that the client is told all the same, and another check is posted of
a limiter that has stopped. It is the same when the limiter throttles at once. -/
theorem client_told_by_stopped_limiter :
    ∃ h h₁ h₂, Run (Host.new "main" .desktop) reluctant h ∧
      Does h .runUntilIdle (.count 1) h₁ ∧ HasStopped h₁ 0 ∧ checksIn h₁.queue 0 = 1 ∧
      h₁.state.events
        = .limit "ui" :: .did [.stopLimiter "lim"] .done :: .wait "tab" :: h.state.events ∧
      Does h (.limitNow "lim") (.flag true) h₂ ∧ HasStopped h₂ 0 ∧
      h₂.state.events
        = .limit "ui" :: .did [.stopLimiter "lim"] .done :: .wait "tab" :: h.state.events := by
  have hafter : after? 9 reluctant (Host.new "main" .desktop)
      = some (endOf 9 reluctant (Host.new "main" .desktop)) := rfl
  exact ⟨_, _, _, .of_after? hafter, ⟨9, rfl⟩, ⟨_, rfl, rfl⟩, rfl, rfl, ⟨9, rfl⟩, ⟨_, rfl, rfl⟩, rfl⟩

end Step

end Compositor
