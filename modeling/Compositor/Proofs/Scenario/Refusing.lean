import Compositor.Proofs.Host.Refusing
import Compositor.Proofs.Scenario.Run

/-!
# What a refused request costs

A runner may refuse a post, and then it is expected that nothing is lost by having asked:
what waited before still waits, and what was refused may be asked for again. Of a request
for a pass the first is true of everything but the delayed pass that an immediate one
supersedes, and the second of everything but a number of windows.
-/

namespace Compositor

namespace Host

open Compositor.Action

variable {S : Type} {h : Host S}

/-- **What a request that the runner refuses can cost.** Whatever state a host is in, asking for
a pass that the runner refuses comes to an answer, and the queue stays as it is: whatever was
in it is still in it, at its place and with its due time. Each task in it would still start a
pass if it would have done so before, but for those that are guarded by the handle that the
refused request gave up: a delayed pass that was refused gives up the new handle that it was
to have, and an immediate one that of the delayed pass that waited, if one did. So without a
delayed pass that waits, nothing is lost by an immediate one. The manager itself takes a pass
to be waiting exactly if it did before and did not give it up.

It is the same with the immediate pass for a new number of windows. That number stays as it
was set, so whatever pass is asked for next uses it; but setting it once more changes
nothing and asks for no pass, whether the runner accepts again or not. -/
theorem refused_request_loses_at_most {number : Nat} {seat : ManagerSeat S}
    (hseat : h.state.managers.get? number = some seat) (hrefuses : h.queue.accepting = false) :
    (∀ immediate, ∃ (h' : Host S) (m : Manager), (schedule number immediate).on h = (.ok (), h')
      ∧ LosesAtMost (seat.manager.givenUp immediate h.state.handles) h h'
      ∧ (immediate = true → seat.manager.delayed.isPending h.state.handles = false →
          ∀ task, h'.startsPass task = h.startsPass task)
      ∧ h'.state.managers.get? number = some { seat with manager := m }
      ∧ seat.manager.Rebuffed immediate h.state.handles m h'.state.handles)
    ∧ ∀ windows, seat.manager.windows ≠ Manager.normalWindows windows →
      ∃ (h' : Host S) (m : Manager), (setWindows number windows).on h = (.ok (), h')
      ∧ LosesAtMost (seat.manager.givenUp true h.state.handles) h h'
      ∧ (seat.manager.delayed.isPending h.state.handles = false →
          ∀ task, h'.startsPass task = h.startsPass task)
      ∧ h'.state.managers.get? number = some { seat with manager := m }
      ∧ { seat.manager with windows := Manager.normalWindows windows }.Rebuffed true
          h.state.handles m h'.state.handles
      ∧ (∀ total, m.bounds total = .ofLimits seat.manager.limits total seat.manager.softLimit
          (Manager.normalWindows windows))
      ∧ ∀ h'' : Host S,
          (h''.state.managers.get? number).map (fun s => s.manager.windows) = some m.windows →
            (setWindows number windows).on h'' = (.ok (), h'') := by
  refine ⟨fun immediate => ?_, fun windows hchange => ?_⟩
  · obtain ⟨_, h', hon, m, handles, hrebuffed, rfl⟩ :=
      ends_false_iff.1 (ends_schedule_refused hseat hrefuses immediate)
    have hdown : m.shutDown = seat.manager.shutDown := by rw [hrebuffed.rest]
    have hloses := losesAtMost_reseated hseat hdown hrebuffed.isCanceled
    refine ⟨_, m, hon, hloses, ?_, Roster.get?_update_of_some hseat _, hrebuffed⟩
    rintro rfl hidle
    exact hloses.startsPass_eq fun handle => isCanceled_of_givenUp hidle
  · obtain ⟨_, h', hon, m, handles, hrebuffed, rfl⟩ :=
      ends_false_iff.1 (ends_setWindows_refused hseat hrefuses hchange)
    have hdown : m.shutDown = seat.manager.shutDown := by rw [hrebuffed.rest]
    have hgiven := Manager.givenUp_true
      { seat.manager with windows := Manager.normalWindows windows } h.state.handles
    have hloses := losesAtMost_reseated hseat hdown hrebuffed.isCanceled
    rw [hgiven, ← Manager.givenUp_true seat.manager] at hloses
    refine ⟨_, m, hon, hloses, fun hidle => hloses.startsPass_eq fun handle =>
      isCanceled_of_givenUp hidle, Roster.get?_update_of_some hseat _, hrebuffed, fun total => ?_,
      fun h'' hsame => setWindows_of_same (hsame.trans ?_)⟩
    · rw [hrebuffed.rest]
      rfl
    · rw [hrebuffed.rest]

end Host

namespace Step

/-- A delayed pass waits, and the runner has begun to refuse what is posted. -/
def besieged : List Step :=
  [.newManager "gpu" (.fields { total := some 1000 }) [] none [], .schedule "gpu" false,
    .accept false]

/-- The immediate pass that is refused costs the delayed one that waits, and the number of
windows for which another is refused is kept. -/
theorem refused_request_loses_at_most_besieged :
    ∃ h seat h' m, Run (Host.new "main" .desktop) besieged h ∧
      h.state.managers.get? 0 = some seat ∧ h.queue.accepting = false ∧
      (Host.schedule 0 true).on h = (.ok (), h') ∧ Host.LosesAtMost (some 0) h h' ∧
      h'.state.managers.get? 0 = some { seat with manager := m } ∧ m.immediate = false ∧
      ∃ (h'' : Host Script) (m' : Manager), (Host.setWindows 0 (some 4)).on h = (.ok (), h'') ∧
        h''.state.managers.get? 0 = some { seat with manager := m' } ∧ m'.windows = some 4 ∧
        Host.LosesAtMost (some 0) h h'' ∧
        (Host.setWindows 0 (some 4)).on h'' = (.ok (), h'') := by
  obtain ⟨h, hrun, hrefuses, hfound⟩ := Run.exists_of_after? 9 besieged
    (h := Host.new "main" .desktop)
    (P := fun h => h.queue.accepting = false ∧
      (h.state.managers.get? 0).map (fun seat => (seat.manager.windows, seat.manager.immediate,
        seat.manager.givenUp true h.state.handles)) = some (none, false, some 0))
    (by decide +kernel)
  obtain ⟨seat, hseat, hdata⟩ := Option.map_eq_some_iff.1 hfound
  obtain ⟨hwindows, hdata⟩ := Prod.mk.inj hdata
  obtain ⟨himmediate, hgiven⟩ := Prod.mk.inj hdata
  obtain ⟨hschedule, hset⟩ := Host.refused_request_loses_at_most hseat hrefuses
  obtain ⟨h', m, hon, hloses, -, hkept, hrebuffed⟩ := hschedule true
  have hchange : seat.manager.windows ≠ Manager.normalWindows (some 4) := by
    rw [hwindows]
    nofun
  obtain ⟨h'', m', hon', hloses', -, hkept', hrebuffed', -, hagain⟩ := hset (some 4) hchange
  have hfour : m'.windows = some 4 := by
    rw [hrebuffed'.rest]
    rfl
  have hflag : m.immediate = false := by
    rw [hrebuffed.rest]
    exact himmediate
  rw [hgiven] at hloses hloses'
  refine ⟨h, seat, h', m, hrun, hseat, hrefuses, hon, hloses, hkept, hflag, h'', m', hon', hkept',
    hfour, hloses', hagain h'' ?_⟩
  rw [hkept']
  rfl

/-- **A refused post does lose something.** An immediate pass that is refused takes the delayed
pass that waits down with it: of the tasks in the queue none starts a pass any more. And a
number of windows for which the pass was refused does not get it by being set again once the
runner accepts: nothing is posted, and no pass runs. -/
theorem pass_lost_by_refusal :
    (∃ h h', Run (Host.new "main" .desktop) besieged h ∧ Run h [.schedule "gpu" true] h' ∧
      (∃ p ∈ h.queue.pending, h.startsPass p.task = true) ∧
      ∀ p ∈ h'.queue.pending, h'.startsPass p.task = false) ∧
    ∃ h h', Run (Host.new "main" .desktop)
        [.newManager "gpu" (.fields { total := some 1000 }) [] none [], .accept false,
          .setWindows "gpu" (some 4)] h ∧
      Run h [.accept true, .setWindows "gpu" (some 4), .runUntilIdle, .advance 1000000000] h' ∧
      h'.begun = 0 := by
  constructor
  · obtain ⟨h, hrun, hwaits, hlast⟩ := Run.exists_of_after? 9 besieged
      (h := Host.new "main" .desktop)
      (P := fun h => (∃ p ∈ h.queue.pending, h.startsPass p.task = true) ∧
        (after? 9 [.schedule "gpu" true] h).map (fun h' =>
          decide (∀ p ∈ h'.queue.pending, h'.startsPass p.task = false)) = some true)
      (by decide +kernel)
    obtain ⟨h', hrun', hlost⟩ := Run.exists_of_after? _ _ hlast
    exact ⟨h, h', hrun, hrun', hwaits, hlost⟩
  · obtain ⟨h, hrun, hlast⟩ := Run.exists_of_after? 9
      [.newManager "gpu" (.fields { total := some 1000 }) [] none [], .accept false,
        .setWindows "gpu" (some 4)]
      (h := Host.new "main" .desktop)
      (P := fun h => (after? 9 [.accept true, .setWindows "gpu" (some 4), .runUntilIdle,
        .advance 1000000000] h).map (fun h' => decide (h'.begun = 0)) = some true)
      (by decide +kernel)
    obtain ⟨h', hrun', hnone⟩ := Run.exists_of_after? _ _ hlast
    exact ⟨h, h', hrun, hrun', hnone⟩

end Step

end Compositor
