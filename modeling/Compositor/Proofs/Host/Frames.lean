import Compositor.Proofs.Host.Fading

/-!
# Fades that take their course

Every operation of a host lets a fade that is watched take its course, but for those that
interfere. Single changes do so, by `Lasting`; what calls back does, if the scripts do that it
runs; and the frames of the fade itself take it from one frame to the next. A fade that was
disturbed is another matter: it stays disturbed whatever happens, by `Enduring`.
-/

namespace Compositor.Host

open Compositor.Action

variable {S : Type} {w : FadeWatch S} {now : Nanos} {inHand : Bool} {h : Host S}

namespace FadeWatch

/-! ## Disturbed for good -/

/-- Some number of inputs has been noted, and the gate was shut if that is asked for. -/
def Past (w : FadeWatch S) (inputs : Nat) (shut : Bool) (h : Host S) : Prop :=
  inputs ≤ h.noted w.isInput ∧ (shut = true → w.Shut h.state.proxies)

variable {inputs : Nat} {shut : Bool}

/-- Whatever else is seen. -/
theorem Past.emit (hP : w.Past inputs shut h) (e : Event S) :
    w.Past inputs shut { h with state := { h.state with events := e :: h.state.events } } :=
  ⟨Nat.le_trans hP.1 (List.Sublist.countP_le (List.sublist_cons_self ..)), hP.2⟩

theorem Past.aside {h' : Host S} (hP : w.Past inputs shut h) (hsame : h'.facets = h.facets) :
    w.Past inputs shut h' := by
  have hevents : h'.state.events = h.state.events := congrArg Facets.events hsame
  have hproxies : h'.state.proxies = h.state.proxies := congrArg Facets.proxies hsame
  unfold Past Host.noted
  rw [hevents, hproxies]
  exact hP

/-- **Every single change leaves what was noted, and keeps a gate shut.** -/
theorem enduring_past (w : FadeWatch S) (inputs : Nat) (shut : Bool) :
    Enduring (w.Past inputs shut) (w.Past inputs shut) where
  halted _ hP := hP
  aside hP hsame := hP.aside hsame
  haltedAside hP hsame := hP.aside hsame
  seen hP _ _ _ _ := hP.emit _
  posted hP _ _ _ _ := hP
  kept hP _ _ _ := hP
  released hP _ := hP
  gated hP hproxies := ⟨hP.1, fun hshut => (hP.2 hshut).regate hproxies⟩
  barMade hP _ _ := hP
  painted hP _ _ _ _ := hP
  started hP _ _ _ _ := hP
  startedPosting hP _ _ _ _ _ := hP
  stopped hP _ := hP
  made hP _ _ _ _ := hP
  unnamed hP _ := hP
  contextMade hP _ _ := hP
  contextDropped hP _ := hP
  clientMade hP _ _ := hP
  clientDropped hP _ := hP
  evolved hP _ := hP
  misreported hP _ _ _ _ := hP
  managerMade hP _ _ _ := hP
  managerDropped hP _ := hP
  restubbed hP _ := hP
  fadeSeen hP _ _ _ := hP.emit _
  framePosted hP _ _ _ := hP
  barChanged hP _ _ := hP
  moved hP _ _ _ := hP
  taken hP _ _ _ := hP
  cleared hP := hP
  accepts hP _ := hP

/-- What calls back leaves it, too, if scripts do. -/
theorem callsBack_past {run : S → Act S Unit}
    (hrun : ∀ script, (run script).Preserves (w.Past inputs shut) (w.Past inputs shut)) :
    CallsBack run (w.Past inputs shut) (w.Past inputs shut) :=
  (enduring_past w inputs shut).callsBack hrun (fun _ e hP => hP.emit e) (fun _ _ _ _ hP => hP)
    (fun _ _ hP => hP) fun _ _ hP => hP

namespace Fading

/-- **A fade is on time, or it was disturbed** and will be for good. -/
theorem cases (hF : w.Fading now inHand h) :
    (∃ inputs shut, w.Past inputs shut h ∧ ∀ h', w.Past inputs shut h' →
      w.noted ≤ h'.noted w.isInput ∧ w.Disturbed h'.state.events h'.state.proxies) ∨
    (h.queue.now = now ∧ ∃ k, w.OnTime inHand h.queue h.state.heldTasks h.state.events
      h.state.proxies h.state.scrollbars k) := by
  obtain ⟨hnoted, hdisturbed | hT⟩ := hF
  · rcases hdisturbed with hinput | hshut
    · exact .inl ⟨w.noted + 1, false, ⟨hinput, Bool.false_ne_true.elim⟩, fun h' hP =>
        ⟨Nat.le_of_lt hP.1, .inl hP.1⟩⟩
    · exact .inl ⟨w.noted, true, ⟨hnoted, fun _ => hshut⟩, fun h' hP =>
        ⟨hP.1, .inr (hP.2 rfl)⟩⟩
  · exact .inr hT

theorem of_disturbed (hdisturbed : w.noted ≤ h.noted w.isInput ∧
      w.Disturbed h.state.events h.state.proxies) : w.Fading now inHand h :=
  ⟨hdisturbed.1, .inl hdisturbed.2⟩

/-! ## Single changes -/

theorem emit (hF : w.Fading now inHand h) {e : Event S} (hother : e.frame? w.name = none) :
    w.Fading now inHand { h with state := { h.state with events := e :: h.state.events } } :=
  ⟨Nat.le_trans hF.1 (List.Sublist.countP_le (List.sublist_cons_self ..)),
    hF.2.imp (fun hdisturbed => hdisturbed.emit e) fun ⟨hnow, k, hT⟩ => ⟨hnow, k, hT.emit hother⟩⟩

/-- **A change that nobody sees** and that leaves the gates and the clock alone is fine, if it
leaves the fade on time. -/
theorem change {h' : Host S} (hF : w.Fading now inHand h)
    (hevents : h'.state.events = h.state.events) (hproxies : h'.state.proxies = h.state.proxies)
    (hclock : h'.queue.now = h.queue.now)
    (hkeeps : ∀ {k}, w.OnTime inHand h.queue h.state.heldTasks h.state.events h.state.proxies
        h.state.scrollbars k →
      w.OnTime inHand h'.queue h'.state.heldTasks h'.state.events h'.state.proxies
        h'.state.scrollbars k) : w.Fading now inHand h' := by
  unfold Fading Host.noted
  rw [hevents, hproxies, hclock]
  refine ⟨hF.1, hF.2.imp_right ?_⟩
  rintro ⟨hnow, k, hT⟩
  exact ⟨hnow, k, hevents ▸ hproxies ▸ hkeeps hT⟩

theorem accept (hF : w.Fading now inHand h) {task : Task S} (hno : task.fades w.name = false)
    (delay : Nanos) : w.Fading now inHand { h with queue := h.queue.accept task delay } :=
  hF.change rfl rfl rfl fun hT => hT.accept hno delay

theorem regate (hF : w.Fading now inHand h) {proxies : Roster Proxy}
    (hproxies : h.state.proxies.Regates proxies) :
    w.Fading now inHand { h with state := { h.state with proxies } } :=
  ⟨hF.1, hF.2.imp (fun hdisturbed => hdisturbed.regate hproxies) fun ⟨hnow, k, hT⟩ =>
    ⟨hnow, k, hT.regate hproxies⟩⟩

/-- No facet of the host changed. -/
theorem aside {h' : Host S} (hF : w.Fading now inHand h) (hsame : h'.facets = h.facets) :
    w.Fading now inHand h' := by
  have hqueue : h'.queue = h.queue := congrArg Facets.queue hsame
  have hheld : h'.state.heldTasks = h.state.heldTasks := congrArg Facets.heldTasks hsame
  have hevents : h'.state.events = h.state.events := congrArg Facets.events hsame
  have hproxies : h'.state.proxies = h.state.proxies := congrArg Facets.proxies hsame
  have hbars : h'.state.scrollbars = h.state.scrollbars := congrArg Facets.scrollbars hsame
  unfold Fading Host.noted
  rw [hqueue, hheld, hevents, hproxies, hbars]
  exact hF

end Fading

/-- **A fade takes its course** while the clock, the tasks that wait and the fades are left
alone. -/
theorem lasting_fading (w : FadeWatch S) (now : Nanos) (inHand : Bool) :
    Lasting (w.Fading now inHand) fun _ => True where
  halted _ _ := trivial
  aside hF hsame := hF.aside hsame
  haltedAside _ _ := trivial
  seen hF _ _ _ hfade := hF.emit (Event.frame?_of_isFade hfade)
  posted hF _ htask _ _ := hF.accept (htask.2 _) _
  kept hF name _ htask := hF.change rfl rfl rfl fun hT => hT.keep name (htask.2 _)
  released hF name := hF.change rfl rfl rfl fun hT => hT.release name
  gated hF hproxies := hF.regate hproxies
  barMade hF name bar := hF.change rfl rfl rfl fun hT => hT.enroll name bar
  painted hF _ _ hbar opacity := hF.change rfl rfl rfl fun hT => hT.paint hbar opacity
  started hF _ _ _ _ := hF
  startedPosting hF _ _ _ _ _ := hF.change rfl rfl rfl fun hT => hT.accept rfl 0
  stopped hF _ := hF
  made hF _ _ _ _ := hF
  unnamed hF _ := hF
  contextMade hF _ _ := hF
  contextDropped hF _ := hF
  clientMade hF _ _ := hF
  clientDropped hF _ := hF
  evolved hF _ := hF
  misreported _ _ _ _ _ := trivial
  managerMade hF _ _ _ := hF
  managerDropped hF _ := hF
  restubbed hF _ := hF

end FadeWatch

/-! ## Frames -/

section Frames

variable {run : S → Act S Unit} {Q : Unit → Host S → Prop} {E : Halt → Host S → Prop}

/-- What an action answers is let go of. -/
theorem ends_discard {α : Type} (a : Act S α) :
    (discard a).Ends h Q E ↔ a.Ends h (fun _ => Q ()) E :=
  ends_map ..

/-- **A frame** brings the scrollbar up to date, shows it, calls back, and posts the next frame if
the scrollbar shows. -/
theorem ends_runFrame_of_bar {fade : Fade S} {bar : Scrollbar} {opacity : Float32}
    (hbar : h.state.scrollbars.get? fade.scrollbar = some bar)
    (hopacity : bar.opacityAt h.queue.now = .ok opacity) :
    (runFrame run fade).Ends h Q E ↔
      (run fade.onFrame).Ends { h with state := { h.state with
          events := .fade fade.name opacity h.queue.now :: h.state.events
          scrollbars := h.state.scrollbars.update fade.scrollbar fun _ => { bar with opacity } } }
        (fun _ h' => if Transform.zero < opacity
          then (postFrame fade fade.interval).Ends h' (fun _ => Q ()) E else Q () h') E := by
  unfold runFrame animate
  simp only [ends_bind, ends_now, ends_residents, hbar, ends_ofExcept,
    Scrollbar.animate_eq_ok hopacity, ends_change, ends_pure, ends_emit]
  by_cases hshows : Transform.zero < opacity
  · simp only [hshows, decide_true, if_true, ends_discard]
  · simp only [hshows, decide_false, if_false, Bool.false_eq_true, ends_pure]

end Frames

/-! ## Steps about other scrollbars -/

theorem keeps_changeScrollbar_other {name : String} (hne : name ≠ w.name)
    (f : Scrollbar → Scrollbar) :
    (changeScrollbar name f : Act S Reply).Keeps (w.Fading now inHand) := by
  intro h hF
  unfold changeScrollbar withNamed
  rw [ends_bind, ends_residents]
  cases hnumber : h.state.scrollbars.number? name with
  | none => exact hF
  | some number =>
    simp only [ends_bind, ends_change, ends_pure]
    refine hF.change rfl rfl rfl fun hT => hT.changeOther ?_ f
    rintro rfl
    exact hne (hT.named hnumber)

theorem keeps_postFrame_other {fade : Fade S} (hne : fade.name ≠ w.name) (delay : Nanos) :
    (postFrame fade delay).Keeps (w.Fading now inHand) := by
  have hno : (Task.proxied fade.proxy (.frame fade)).fades w.name = false :=
    beq_eq_false_iff_ne.2 hne
  exact fun _ hF => ends_post_cases (fun _ _ => hF.accept hno delay) hF fun _ => trivial

theorem keeps_startFade_other {name : String} (hne : name ≠ w.name) (proxy : String)
    (interval : Nanos) (onFrame : S) :
    (startFade name proxy interval onFrame).Keeps (w.Fading now inHand) := by
  refine preserves_residents.bind fun r => ?_
  split
  · exact .bind (keeps_postFrame_other (by exact hne) 0) fun _ => .pure _
  · exact .pure _

section Callbacks

variable {run : S → Act S Unit}
  (hrun : ∀ now inHand script, (run script).Keeps (w.Fading now inHand))

include hrun

theorem keeps_manage_fading (number : Nat) : (manage run number).Keeps (w.Fading now inHand) :=
  (w.lasting_fading now inHand).manage (hrun now inHand)
    (fun _ _ _ hfade hF => hF.emit (Event.frame?_of_isFade hfade)) (fun _ _ hF => hF)
    (fun _ _ hF => hF) number

theorem keeps_limitNow_fading (number : Nat) : (limitNow run number).Keeps (w.Fading now inHand) :=
  have hP := w.lasting_fading now inHand
  preserves_limitNow (fun _ => preserves_callTargets hP.holding (fun _ _ hF _ => hF.emit rfl)
    (fun _ _ hF _ => hF.emit rfl) (hrun now inHand)) (hP.stopLimiter number)

theorem keeps_runCheck_fading (number : Nat) :
    (runCheck run number).Keeps (w.Fading now inHand) := by
  refine preserves_runCheck (keeps_limitNow_fading hrun number) fun delay =>
    preserves_residents.bind fun r => ?_
  split
  · exact .pure _
  · exact .map (fun _ hF => ends_post_cases (fun _ _ => hF.accept rfl delay) hF fun _ => trivial) _

/-- A frame of another fade. -/
theorem keeps_runFrame_other {fade : Fade S} (hne : fade.name ≠ w.name) :
    (runFrame run fade).Keeps (w.Fading now inHand) := by
  have hP := w.lasting_fading now inHand
  exact preserves_runFrame (hrun now inHand) (hP.animate fade.scrollbar)
    (fun _ _ => preserves_change fun _ hF => hF.emit (if_neg hne))
    (keeps_postFrame_other hne fade.interval)

/-- Any task but a frame of such a fade. -/
theorem keeps_runTask_other {task : Task S} (hno : task.fades w.name = false) :
    (runTask run task).Keeps (w.Fading now inHand) := by
  refine (w.lasting_fading now inHand).runTask (hrun now inHand) (keeps_manage_fading hrun)
    (fun number _ => keeps_runCheck_fading hrun number) fun fade hfades =>
    keeps_runFrame_other hrun fun heq => ?_
  rw [heq, hno] at hfades
  cases hfades

/-- **A frame of the fade itself**: it is shown at the time it is due, and the next one is posted
unless it was the last. -/
theorem ends_runFrame_own {k : Nat} {q : Pending (Task S)} {rest : List (Pending (Task S))}
    (hnoted : w.noted ≤ h.noted w.isInput)
    (hT : w.OnTime inHand h.queue h.state.heldTasks h.state.events h.state.proxies
      h.state.scrollbars k) (hpending : h.queue.pending = q :: rest)
    (hfades : q.task.fades w.name = true) :
    (runFrame run w.fade).Ends { h with queue := h.queue.without q rest }
      (fun _ => w.Fading (w.timeOf k) false) fun _ _ => True := by
  obtain ⟨-, hlast, -, hnow, -⟩ := hT.take hpending hfades
  obtain ⟨shows, hbar⟩ := hT.bar
  have hopacity := (Scrollbar.opacityAt_eq_ok w.bar_released w.bar_awakened w.bar_formed
    (h.queue.without q rest).now).1
  rw [ends_runFrame_of_bar hbar hopacity]
  have hshown := hT.reveal hpending hfades
  refine (hrun (w.timeOf k) true w.onFrame _ ⟨?_, .inr ⟨hnow, k + 1, hshown⟩⟩).imp
    (fun _ h' hF => ?_) fun _ _ _ => trivial
  · exact Nat.le_trans hnoted (List.Sublist.countP_le (List.sublist_cons_self ..))
  · rw [hnow]
    rcases hF.cases with ⟨inputs, shut, hP, hstays⟩ | ⟨hclock, k', hT'⟩
    · -- what was called back interfered
      split
      · exact ((w.enduring_past inputs shut).postFrame w.fade w.interval h' hP).imp
          (fun _ h'' hP' => .of_disturbed (hstays h'' hP')) fun _ _ _ => trivial
      · exact .of_disturbed (hstays h' hP)
    · obtain rfl := hT'.eq_of_inHand hclock
      split
      · next hshows =>
        have hmore : k + 1 ≤ w.last := (w.zero_lt_iff k).1 hshows
        exact ends_post_accepting hT'.accepting ⟨hF.1, .inr ⟨hclock, _, hT'.repost hmore⟩⟩
      · next hgone =>
        have hover : w.last ≤ k := Nat.le_of_not_lt (mt (w.zero_lt_iff k).2 hgone)
        exact ⟨hF.1, .inr ⟨hclock, _, hT'.finish (Nat.lt_succ_of_le hover)⟩⟩

variable (hpast : ∀ inputs shut script,
  (run script).Preserves (w.Past inputs shut) (w.Past inputs shut))

include hpast

/-! ## Pumps -/

/-- **A task that is taken out of the queue** lets the fade take its course when it is run. -/
theorem ends_runTask_fading {q : Pending (Task S)} {rest : List (Pending (Task S))}
    (hF : w.Fading now inHand h) (hpending : h.queue.pending = q :: rest)
    (hdue : inHand = true → q.due ≤ now) :
    (runTask run q.task).Ends { h with queue := h.queue.without q rest }
      (fun _ => w.Fading (max now q.due) inHand) fun _ _ => True := by
  rcases hF.cases with ⟨inputs, shut, hP, hstays⟩ | ⟨rfl, k, hT⟩
  · have hpop := TaskQueue.popNext_eq_some.2 ⟨q, rest, hpending, rfl, rfl⟩
    exact ((FadeWatch.callsBack_past (hpast inputs shut)).due hP hpop).imp
      (fun _ h' hP' => .of_disturbed (hstays h' hP')) fun _ _ _ => trivial
  · cases hfades : q.task.fades w.name with
    | false =>
      exact keeps_runTask_other hrun hfades _
        ⟨hF.1, .inr ⟨rfl, k, hT.pop hpending hfades hdue⟩⟩
    | true =>
      obtain ⟨rfl, -, htask, hnow, -⟩ := hT.take hpending hfades
      have hnow : max h.queue.now q.due = w.timeOf k := hnow
      rw [htask, FadeWatch.task, ends_runTask_proxied, hnow]
      split
      · rw [runTask]
        exact ends_runFrame_own hrun hF.1 hT hpending hfades
      · next hclosed =>
        obtain ⟨p, hp⟩ := hT.gate
        have hdown : p.shutDown = true := by
          refine Bool.eq_true_of_not_eq_false fun hopen => hclosed ?_
          show Option.map _ (h.state.proxies.get? w.proxy) = _
          rw [hp, Option.map_some, hopen]
        have hshut : w.Shut h.state.proxies := ⟨p, hp, hdown⟩
        exact ⟨hF.1, .inl (.inr (hshut.regate (.update fun _ _ => id)))⟩

/-- **Running what is due** lets it take its course, and takes the clock to the deadline at most;
while a frame is in hand, the deadline has to be what the clock reads. -/
theorem settles_runDue_fading {deadline : Nanos} (fuel : Nat) (hF : w.Fading now inHand h)
    (hle : now ≤ deadline) (hclock : inHand = true → deadline = now) :
    (EventLoop.runDue (runTask run) deadline fuel).Ends h
      (fun _ h' => (∃ now', now ≤ now' ∧ now' ≤ deadline ∧ w.Fading now' inHand h') ∧
        h'.queue.popDue deadline = none) fun _ _ => True := by
  refine EventLoop.settles_runDue (P := fun h => ∃ now', now ≤ now' ∧ now' ≤ deadline ∧
    w.Fading now' inHand h) deadline (fun l task queue => ?_) fuel ⟨now, Nat.le_refl _, hle, hF⟩
  rintro ⟨now', hge, hle', hF'⟩ hpop
  obtain ⟨q, rest, hpending, hdue, rfl, rfl⟩ := TaskQueue.popDue_eq_some.1 hpop
  have hdue' (hinHand : inHand = true) : q.due ≤ now' :=
    Nat.le_trans hdue (Nat.le_trans (Nat.le_of_eq (hclock hinHand)) hge)
  exact (ends_runTask_fading hrun hpast hF' hpending hdue').imp (fun _ h' hF'' => ⟨max now' q.due,
    Nat.le_trans hge (Nat.le_max_left ..), Nat.max_le.2 ⟨hle', hdue⟩, hF''⟩) fun _ _ _ => trivial

/-- Running what is due now does not move the clock. -/
theorem keeps_runUntilIdle_fading (fuel : Nat) :
    (EventLoop.runUntilIdle (runTask run) fuel).Keeps (w.Fading now inHand) := by
  intro h hF
  rcases hF.cases with ⟨inputs, shut, hP, hstays⟩ | ⟨rfl, -⟩
  · have hback := FadeWatch.callsBack_past (hpast inputs shut)
    exact (EventLoop.preserves_runUntilIdle (fun _ hP => hP) (fun _ _ _ => hback.due) fuel h hP).imp
      (fun _ h' hP' => .of_disturbed (hstays h' hP')) fun _ _ _ => trivial
  · unfold EventLoop.runUntilIdle
    rw [ends_bind, ends_get]
    refine (settles_runDue_fading hrun hpast fuel hF (Nat.le_refl _) fun _ => rfl).imp
      (fun _ h' hsettled => ?_) fun _ _ _ => trivial
    obtain ⟨⟨now', hge, hle, hF'⟩, -⟩ := hsettled
    exact Nat.le_antisymm hge hle ▸ hF'

/-- A task that was kept is run, once. -/
theorem keeps_runHeld_fading (name : String) : (runHeld run name).Keeps (w.Fading now inHand) := by
  intro h hF
  rcases hF.cases with ⟨inputs, shut, hP, hstays⟩ | ⟨-, k, hT⟩
  · have hback := FadeWatch.callsBack_past (hpast inputs shut)
    exact (hback.runHeld name h hP).imp (fun _ h' hP' => .of_disturbed (hstays h' hP'))
      fun _ _ _ => trivial
  · unfold Host.runHeld withNamed
    rw [ends_bind, ends_residents]
    cases htask : h.state.heldTasks.find? name with
    | none => exact hF
    | some task =>
      simp only [ends_bind, ends_change]
      exact keeps_runTask_other hrun (hT.held htask) _
        ((w.lasting_fading now inHand).released hF name)

/-- **Advancing** takes the clock ahead by a span, and all frames are seen that are due by then. -/
theorem ends_advance_fading (fuel : Nat) (span : Nanos) (hF : w.Fading now false h) :
    (EventLoop.advance (runTask run) fuel span).Ends h
      (fun _ h' => w.Fading (now + span) false h' ∧
        (w.Disturbed h'.state.events h'.state.proxies ∨
          h'.queue.now = now + span ∧ w.Seen h'.queue h'.state.events)) fun _ _ => True := by
  rcases hF.cases with ⟨inputs, shut, hP, hstays⟩ | ⟨rfl, -⟩
  · have hback := FadeWatch.callsBack_past (hpast inputs shut)
    refine (EventLoop.preserves_advance (fun _ hP => hP) (fun _ _ _ => hback.due)
      (fun _ _ hP _ _ => hP) fuel span h hP).imp (fun _ h' hP' => ?_) fun _ _ _ => trivial
    have hdisturbed := hstays h' hP'
    exact ⟨.of_disturbed hdisturbed, .inl hdisturbed.2⟩
  · unfold EventLoop.advance
    simp only [ends_bind, ends_get, ends_ofExcept]
    cases htarget : Nanos.add h.queue.now span with
    | error f => trivial
    | ok target =>
      obtain ⟨rfl, -⟩ := Nanos.add_eq_ok.1 htarget
      refine (settles_runDue_fading hrun hpast fuel hF (Nat.le_add_right ..)
        Bool.false_ne_true.elim).imp (fun _ h' hsettled => ?_) fun _ _ _ => trivial
      obtain ⟨⟨now', -, hle, hnoted, hdisturbed | ⟨rfl, k, hT⟩⟩, hnone⟩ := hsettled
      · exact ⟨⟨hnoted, .inl hdisturbed⟩, .inl hdisturbed⟩
      · obtain ⟨hT', hlater⟩ := hT.moved hle hnone
        exact ⟨⟨hnoted, .inr ⟨rfl, k, hT'⟩⟩, .inr ⟨rfl, hT'.seen hlater⟩⟩

end Callbacks

/-! ## A fade with nothing beside it -/

/-- **The fade is on time, and nothing else waits**; its gate is open. -/
structure FadeWatch.Solo (w : FadeWatch S) (k : Nat) (h : Host S) : Prop where
  onTime : w.OnTime false h.queue h.state.heldTasks h.state.events h.state.proxies
    h.state.scrollbars k
  alone {q : Pending (Task S)} (hq : q ∈ h.queue.pending) : q.task.fades w.name = true
  opened : (h.state.proxies.get? w.proxy).map Proxy.shutDown = some false

section Solo

variable {run : S → Act S Unit} {k : Nat} (hsilent : run w.onFrame = pure ())
  (hformed : w.timeOf w.last ≤ longestSpan)

include hsilent hformed

/-- **Each frame comes to its end**, if it calls nothing back. -/
theorem ends_runTask_solo {q : Pending (Task S)} {rest : List (Pending (Task S))}
    (hS : w.Solo k h) (hpending : h.queue.pending = q :: rest) :
    (runTask run q.task).Ends { h with queue := h.queue.without q rest } (fun _ h' =>
      w.Solo (k + 1) h' ∧ h'.queue.now = (h.queue.without q rest).now) fun _ _ => False := by
  have hT := hS.onTime
  have hfades := hS.alone (hpending ▸ List.mem_cons_self ..)
  obtain ⟨-, hlast, htask, hnow, -⟩ := hT.take hpending hfades
  obtain ⟨shows, hbar⟩ := hT.bar
  have hopacity := (Scrollbar.opacityAt_eq_ok w.bar_released w.bar_awakened w.bar_formed
    (h.queue.without q rest).now).1
  have hshown := hT.reveal hpending hfades
  have hrest {r : Pending (Task S)} (hr : r ∈ rest) : r.task.fades w.name = true :=
    hS.alone (hpending ▸ List.mem_cons_of_mem _ hr)
  rw [htask, FadeWatch.task, ends_runTask_proxied, if_pos hS.opened, runTask,
    ends_runFrame_of_bar hbar hopacity]
  show (run w.onFrame).Ends _ _ _
  rw [hsilent, ends_pure]
  split
  · next hshows =>
    rw [hnow] at hshows
    have hmore : k + 1 ≤ w.last := (w.zero_lt_iff k).1 hshows
    have hdue : (h.queue.without q rest).now + w.interval ≤ longestSpan := by
      rw [hnow, ← w.timeOf_succ]
      exact Nat.le_trans (FadeWatch.timeOf_le hmore) hformed
    refine (ends_post_formed (by exact hshown.accepting) (by exact hdue)).2
      ⟨⟨hshown.repost hmore, fun hr => ?_, hS.opened⟩, rfl⟩
    rcases TaskQueue.mem_pending_accept.1 hr with rfl | hr
    · exact w.fades_task
    · exact hrest hr
  · next hgone =>
    rw [hnow] at hgone
    have hover : w.last ≤ k := Nat.le_of_not_lt (mt (w.zero_lt_iff k).2 hgone)
    exact ⟨⟨hshown.finish (Nat.lt_succ_of_le hover), hrest, hS.opened⟩, rfl⟩

/-- **Running what is due comes to its end**, with fuel for the frames that are left and one unit
more. -/
theorem ends_runDue_solo {deadline : Nanos} {fuel : Nat} (hfuel : w.last + 1 - k < fuel)
    (hS : w.Solo k h) (hle : h.queue.now ≤ deadline) :
    (EventLoop.runDue (runTask run) deadline fuel).Ends h (fun _ h' => ∃ k', w.Solo k' h' ∧
      h'.queue.now ≤ deadline ∧ h'.queue.popDue deadline = none) fun _ _ => False := by
  induction fuel generalizing k h with
  | zero => exact absurd hfuel (Nat.not_lt_zero _)
  | succ fuel ih =>
    unfold EventLoop.runDue
    simp only [ends_bind, ends_get]
    cases hpop : h.queue.popDue deadline with
    | none => exact ⟨k, hS, hle, hpop⟩
    | some popped =>
      obtain ⟨task, queue⟩ := popped
      obtain ⟨q, rest, hpending, hdue, rfl, rfl⟩ := TaskQueue.popDue_eq_some.1 hpop
      -- there was a frame left, and there is one less now
      have hlast : k ≤ w.last :=
        (hS.onTime.take hpending (hS.alone (hpending ▸ List.mem_cons_self ..))).2.1
      simp only [ends_bind, ends_modify]
      refine (ends_runTask_solo hsilent hformed hS hpending).imp (fun _ h' hS' => ?_)
        fun _ _ => False.elim
      exact ih (by omega) hS'.1 (hS'.2 ▸ Nat.max_le.2 ⟨hle, hdue⟩)

/-- **Every advance comes to its end** whose target can be formed. -/
theorem ends_advance_solo {fuel : Nat} (hfuel : w.last + 1 < fuel) {span : Nanos}
    (hS : w.Solo k h) (htarget : h.queue.now + span ≤ longestSpan) :
    (EventLoop.advance (runTask run) fuel span).Ends h (fun _ h' => (∃ k', w.Solo k' h') ∧
      h'.queue.now = h.queue.now + span) fun _ _ => False := by
  unfold EventLoop.advance
  simp only [ends_bind, ends_get, ends_ofExcept, Nanos.add_eq_ok.2 ⟨rfl, htarget⟩]
  refine (ends_runDue_solo hsilent hformed (Nat.lt_of_le_of_lt (Nat.sub_le ..) hfuel) hS
    (Nat.le_add_right ..)).imp (fun _ h' hsettled => ?_) fun _ _ => False.elim
  obtain ⟨k', hS', hle, hnone⟩ := hsettled
  exact ⟨⟨k', (hS'.onTime.moved hle hnone).1, hS'.alone, hS'.opened⟩, rfl⟩

end Solo

end Compositor.Host
