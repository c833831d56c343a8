import Compositor.Proofs.Host.Frames
import Compositor.Proofs.Host.Ordered
import Compositor.Proofs.Scenario.Enduring

/-!
# In every run fades end when they should

A fade is left alone if no step interferes with it: none moves the clock, drops what waits, turns
tasks away, touches the scrollbar or has it fade once more. On the top, steps may move the clock
ahead as well: that is how the fade gets on. In a script a step that interferes leaves a note, so
whether one did can be told from what was seen.

Everything else may go on beside the fade: other tasks wait and run, managers have their passes,
limiters their checks, and other scrollbars fade.
-/

namespace Compositor.Step

open Compositor.Action Host

/-- Whether the step interferes with fades of a name. -/
def disturbs (name : String) : Step → Bool
  | .offThread step => step.disturbs name
  | .advance _ | .runNext | .clearPending | .accept _ => true
  | .scroll bar _ | .pinchBegin bar | .pinchUpdate bar | .pinchEnd bar _ => bar == name
  | .startFade bar _ _ _ => bar == name
  | _ => false

/-- Whether a part of a script, which is a single step, interferes with fades of a name. -/
def isDisturbance (name : String) (part : Script) : Bool := part.any (disturbs name)

/-- By how much the step moves the clock ahead, if all it does is to advance it. -/
def spanOf : Step → Nanos
  | .advance span => span
  | _ => 0

/-- **The step leaves fades of a name alone**, but for advancing the clock. -/
def Spares (name : String) (step : Step) : Prop :=
  step.disturbs name = false ∨ ∃ span, step = .advance span

variable {w : FadeWatch Script} {now : Nanos} {inHand : Bool} {h h' : Host Script}

/-! ## Every step -/

/-- Every step leaves what was noted, and keeps a gate shut. -/
theorem preserves_exec_past (fuel : Nat) (step : Step) (inputs : Nat) (shut : Bool) :
    (exec fuel step).Preserves (w.Past inputs shut) (w.Past inputs shut) :=
  preserves_exec_enduring (fun i : Nat × Bool => w.enduring_past i.1 i.2)
    (fun _ hrun i => FadeWatch.callsBack_past (hrun i)) fuel step (inputs, shut)

/-- **Every step that does not interfere lets the fade take its course**, if the scripts do that it
runs. -/
theorem keeps_perform_fading {run : Script → Act Script Unit}
    (hrun : ∀ now inHand script, (run script).Keeps (w.Fading now inHand))
    (hpast : ∀ inputs shut script,
      (run script).Preserves (w.Past inputs shut) (w.Past inputs shut))
    (fuel : Nat) (step : Step) (hquiet : step.disturbs w.name = false) :
    (perform run fuel step).Keeps (w.Fading now inHand) := by
  have hP := w.lasting_fading now inHand
  have hanswers : Answers run (w.Fading now inHand) fun _ => True :=
    ⟨keeps_manage_fading hrun, keeps_limitNow_fading hrun, keeps_runHeld_fading hrun hpast,
      keeps_runUntilIdle_fading hrun hpast⟩
  have hother {name : String} (hname : (name == w.name) = false) : name ≠ w.name :=
    beq_eq_false_iff_ne.1 hname
  cases step with
  | offThread step =>
    rw [perform]
    exact hP.indifferent.offThread (keeps_perform_fading hrun hpast fuel step hquiet)
  | advance span => cases hquiet
  | runNext => cases hquiet
  | clearPending => cases hquiet
  | accept on => cases hquiet
  | scroll name time =>
    rw [perform]
    exact preserves_now.bind fun _ => keeps_changeScrollbar_other (hother hquiet) _
  | pinchBegin name => rw [perform]; exact keeps_changeScrollbar_other (hother hquiet) _
  | pinchUpdate name => rw [perform]; exact keeps_changeScrollbar_other (hother hquiet) _
  | pinchEnd name time =>
    rw [perform]
    exact preserves_now.bind fun _ => keeps_changeScrollbar_other (hother hquiet) _
  | startFade name proxy interval onFrame =>
    rw [perform]
    exact keeps_startFade_other (hother hquiet) proxy interval onFrame
  | _ => exact preserves_perform_lasting hP hanswers fuel _ rfl

/-- Every step of a script leaves what was noted. -/
theorem preserves_script_past (fuel inputs : Nat) (shut : Bool) (script : Script) :
    (script.forM fun inner => do note inner (← exec fuel inner) : Act Script PUnit).Preserves
      (w.Past inputs shut) (w.Past inputs shut) :=
  .forM fun inner _ => (preserves_exec_past fuel inner inputs shut).bind fun _ =>
    (w.enduring_past inputs shut).emit rfl rfl rfl

section Exec

variable (hinput : ∀ step, w.isInput [step] = step.disturbs w.name)

include hinput

/-- A step of a script lets the fade take its course: if it interferes, its note says so. -/
theorem keeps_noted_fading {fuel : Nat} {inner : Step}
    (hquiet : inner.disturbs w.name = false → (exec fuel inner).Keeps (w.Fading now inHand)) :
    (do note inner (← exec fuel inner) : Act Script PUnit).Keeps (w.Fading now inHand) := by
  intro h hF
  rw [ends_bind]
  cases hinner : inner.disturbs w.name with
  | false =>
    exact (hquiet hinner h hF).imp (fun reply h' hF' => hF'.emit rfl) fun _ _ _ => trivial
  | true =>
    refine (preserves_exec_past fuel inner w.noted false h ⟨hF.1, Bool.false_ne_true.elim⟩).imp
      (fun reply h' hP => ?_) fun _ _ _ => trivial
    have hnotes : (Event.did [inner] reply).notes w.isInput = true := (hinput inner).trans hinner
    have hnoted : w.noted < (Event.did [inner] reply :: h'.state.events).countP
        (Event.notes w.isInput) := by
      rw [List.countP_cons_of_pos hnotes]
      exact Nat.lt_succ_of_le hP.1
    exact ⟨Nat.le_of_lt hnoted, .inl (.inl hnoted)⟩

/-- **So do steps within steps**, whatever the fuel. -/
theorem keeps_exec_fading (fuel : Nat) {step : Step} (hquiet : step.disturbs w.name = false) :
    (exec fuel step).Keeps (w.Fading now inHand) := by
  induction fuel generalizing step now inHand with
  | zero => exact .halt _
  | succ fuel ih =>
    refine keeps_perform_fading (fun now inHand script => .forM fun inner _ => ?_)
      (preserves_script_past fuel) fuel step hquiet
    exact keeps_noted_fading hinput ih

/-- A script, run with some fuel for each step. -/
theorem keeps_script_fading (fuel : Nat) (now : Nanos) (inHand : Bool) (script : Script) :
    (script.forM fun inner => do note inner (← exec fuel inner) : Act Script PUnit).Keeps
      (w.Fading now inHand) :=
  .forM fun _ _ => keeps_noted_fading hinput (keeps_exec_fading hinput fuel)

/-! ## Over whole runs -/

/-- **After an advance** the fade has got on, and what was to be seen by then was seen. -/
theorem Does.fading_advance {span : Nanos} {reply : Reply} (hdoes : Does h (.advance span) reply h')
    (hF : w.Fading now false h) :
    w.Fading (now + span) false h' ∧ (w.Disturbed h'.state.events h'.state.proxies ∨
      h'.queue.now = now + span ∧ w.Seen h'.queue h'.state.events) := by
  obtain ⟨fuel, hon⟩ := hdoes
  cases fuel with
  | zero => cases hon
  | succ fuel =>
    refine Ends.of_on (E := fun _ _ => True) (Q := fun _ h' => w.Fading (now + span) false h' ∧
      (w.Disturbed h'.state.events h'.state.proxies ∨
        h'.queue.now = now + span ∧ w.Seen h'.queue h'.state.events)) ?_ hon
    unfold exec
    rw [perform, ends_bind]
    exact ends_advance_fading (keeps_script_fading hinput fuel) (preserves_script_past fuel) fuel
      span hF

/-- **Steps on the top that spare the fade** let it take its course. -/
theorem Run.fading {steps : List Step} (hrun : Run h steps h')
    (hsteps : ∀ step ∈ steps, step.Spares w.name) (hF : w.Fading now false h) :
    w.Fading (now + (steps.map spanOf).sum) false h' := by
  induction hrun generalizing now with
  | nil => exact hF
  | @cons _ _ _ step _ rest hdoes _ ih =>
    rw [List.map_cons, List.sum_cons, ← Nat.add_assoc]
    refine ih (fun step hstep => hsteps step (List.mem_cons_of_mem _ hstep)) ?_
    rcases hsteps step (List.mem_cons_self ..) with hquiet | ⟨span, rfl⟩
    · have hstill : spanOf step = 0 := by
        cases step with
        | advance span => cases hquiet
        | _ => rfl
      rw [hstill]
      exact hdoes.keeps hF fun fuel => keeps_exec_fading hinput fuel hquiet
    · exact (hdoes.fading_advance hinput hF).1

end Exec

/-! ## From the start on -/

/-- **A scrollbar that can be faded out through a proxy**: it was last scrolled at some time and is
not held, its fade can be reckoned, the gate is open, the runner takes tasks, and no fade of it is
going on. -/
structure Fadeable (h : Host Script) (name proxy : String) (number gate : Nat) (bar : Scrollbar)
    (awakened : Nanos) : Prop where
  named : h.state.scrollbars.number? name = some number
  there : h.state.scrollbars.get? number = some bar
  released : bar.pinching = false
  scrolled : bar.awakened = some awakened
  begun : awakened ≤ h.queue.now
  formed : bar.delay + bar.duration ≤ longestSpan
  gated : h.state.proxies.lastNumber? proxy = some gate
  opened : (h.state.proxies.get? gate).map Proxy.shutDown = some false
  accepting : h.queue.accepting = true
  idle : framesIn h.queue name = 0

namespace Fadeable

variable {name proxy : String} {number gate : Nat} {bar : Scrollbar} {awakened interval : Nanos}

/-- The fade as it is watched from the start on. -/
def watch (hfade : Fadeable h name proxy number gate bar awakened) (hinterval : 0 < interval)
    (onFrame : Script) {last : Nat}
    (hlast : ∀ k, bar.HasFaded awakened (h.queue.now + k * interval) ↔ last ≤ k) :
    FadeWatch Script where
  name
  number
  bar
  awakened
  proxy := gate
  interval
  onFrame
  since := h.queue.now
  last
  shown := framesShown name h
  isInput := isDisturbance name
  noted := h.noted (isDisturbance name)
  bar_released := hfade.released
  bar_awakened := hfade.scrolled
  bar_formed := hfade.formed
  interval_pos := hinterval
  hasFaded_iff := hlast

theorem isInput_watch (hfade : Fadeable h name proxy number gate bar awakened)
    (hinterval : 0 < interval) (onFrame : Script) {last : Nat}
    (hlast : ∀ k, bar.HasFaded awakened (h.queue.now + k * interval) ↔ last ≤ k) (step : Step) :
    (hfade.watch hinterval onFrame hlast).isInput [step] = step.disturbs name := by
  show isDisturbance name [step] = _
  simp [isDisturbance]

/-- **The fade is started**, and its first frame is due at once. -/
theorem onTime (hfade : Fadeable h name proxy number gate bar awakened) (hordered : Ordered h)
    (hinterval : 0 < interval) (onFrame : Script) {last : Nat}
    (hlast : ∀ k, bar.HasFaded awakened (h.queue.now + k * interval) ↔ last ≤ k) :
    (hfade.watch hinterval onFrame hlast).OnTime false
      (h.queue.accept (hfade.watch hinterval onFrame hlast).task 0) h.state.heldTasks
      h.state.events h.state.proxies h.state.scrollbars 0 where
  inTime := hordered.inTime.accept ..
  accepting := hfade.accepting
  held htask := hordered.held htask name
  gate := by
    obtain ⟨p, hp, -⟩ := Option.map_eq_some_iff.1 hfade.opened
    exact ⟨p, hp⟩
  bar := ⟨bar.opacity, hfade.there⟩
  named hname := hordered.names.injective hname hfade.named
  shown := rfl
  bounded := Nat.zero_le _
  begun := Nat.add_le_add_left (Nat.le_trans (Nat.le_of_eq (Nat.zero_mul _)) (Nat.zero_le _)) _
  waiting := by
    rw [framesIn_accept, if_pos (FadeWatch.fades_task _), if_pos ⟨rfl, Nat.zero_le _⟩]
    exact congrArg (· + 1) hfade.idle
  due {q} hq hfades := by
    rcases TaskQueue.mem_pending_accept.1 hq with rfl | hq
    · exact ⟨rfl, congrArg (h.queue.now + ·) (Nat.zero_mul interval).symm⟩
    · exact absurd hfades (List.countP_eq_zero.1 hfade.idle q hq)
  inHand := Bool.false_ne_true.elim

/-- Starting the fade posts its first frame. -/
theorem ends_startFade (hfade : Fadeable h name proxy number gate bar awakened)
    (hinterval : 0 < interval) (onFrame : Script) {last : Nat}
    (hlast : ∀ k, bar.HasFaded awakened (h.queue.now + k * interval) ↔ last ≤ k)
    {Q : Reply → Host Script → Prop} {E : Halt → Host Script → Prop} :
    (Host.startFade name proxy interval onFrame).Ends h Q E ↔
      (EventLoop.post (hfade.watch hinterval onFrame hlast).task 0 : Act Script Bool).Ends h
        (fun accepted => Q (.flag accepted)) E := by
  unfold Host.startFade
  rw [ends_bind, ends_residents]
  simp only [hfade.named, hfade.gated]
  exact ends_map ..

/-- The start answered, so the fade is on its course. -/
theorem fading_start (hfade : Fadeable h name proxy number gate bar awakened)
    (hordered : Ordered h) (hinterval : 0 < interval) {onFrame : Script} {last : Nat}
    (hlast : ∀ k, bar.HasFaded awakened (h.queue.now + k * interval) ↔ last ≤ k) {reply : Reply}
    (hdoes : Does h (.startFade name proxy interval onFrame) reply h') :
    (hfade.watch hinterval onFrame hlast).Fading h.queue.now false h' := by
  obtain ⟨fuel, hon⟩ := hdoes
  cases fuel with
  | zero => cases hon
  | succ fuel =>
    refine Ends.of_on (E := fun _ _ => True) (Q := fun _ =>
      (hfade.watch hinterval onFrame hlast).Fading h.queue.now false) ?_ hon
    unfold exec
    rw [perform, hfade.ends_startFade hinterval onFrame hlast]
    exact ends_post_accepting hfade.accepting
      ⟨Nat.le_refl _, .inr ⟨rfl, 0, hfade.onTime hordered hinterval onFrame hlast⟩⟩

end Fadeable

/-! ## A fade with nothing beside it -/

/-- **Any advances come to their ends**, one after the other. -/
theorem Run.exists_advances {k : Nat} (hsilent : w.onFrame = [])
    (hformed : w.timeOf w.last ≤ longestSpan) (spans : List Nanos) (hS : w.Solo k h)
    (htarget : h.queue.now + spans.sum ≤ longestSpan) :
    ∃ h', Run h (spans.map .advance) h' := by
  induction spans generalizing k h with
  | nil => exact ⟨h, .nil h⟩
  | cons span rest ih =>
    rw [List.sum_cons, ← Nat.add_assoc] at htarget
    have hends : (exec (w.last + 2 + 1) (.advance span)).Ends h (fun _ h' =>
        (∃ k', w.Solo k' h') ∧ h'.queue.now = h.queue.now + span) fun _ _ => False := by
      unfold exec
      rw [perform, ends_bind]
      refine ends_advance_solo ?_ hformed (Nat.lt_succ_self _) hS
        (Nat.le_trans (Nat.le_add_right ..) htarget)
      rw [hsilent]
      rfl
    obtain ⟨reply, h₁, hon, ⟨k', hS'⟩, hnow⟩ := ends_false_iff.1 hends
    obtain ⟨h', hrest⟩ := ih hS' (hnow ▸ htarget)
    exact ⟨h', .cons ⟨_, hon⟩ hrest⟩

/-- **A fade that has nothing beside it** is started, and any advances come to their ends. -/
theorem Fadeable.exists_run {name proxy : String} {number gate : Nat} {bar : Scrollbar}
    {awakened interval : Nanos} (hfade : Fadeable h name proxy number gate bar awakened)
    (hordered : Ordered h) (hinterval : 0 < interval) {last : Nat}
    (hlast : ∀ k, bar.HasFaded awakened (h.queue.now + k * interval) ↔ last ≤ k)
    (hempty : h.queue.pending = []) (hformed : h.queue.now + last * interval ≤ longestSpan)
    (spans : List Nanos) (htarget : h.queue.now + spans.sum ≤ longestSpan) :
    ∃ h', Run h (.startFade name proxy interval [] :: spans.map .advance) h' := by
  let w := hfade.watch hinterval [] hlast
  have hnow : h.queue.now + 0 ≤ longestSpan := Nat.le_trans (Nat.le_add_right ..) htarget
  have hends : (exec 1 (.startFade name proxy interval [])).Ends h (fun _ h' =>
      w.Solo 0 h' ∧ h'.queue.now = h.queue.now) fun _ _ => False := by
    unfold exec
    rw [perform, hfade.ends_startFade hinterval [] hlast]
    refine (ends_post_formed hfade.accepting hnow).2
      ⟨⟨hfade.onTime hordered hinterval [] hlast, fun hq => ?_, hfade.opened⟩, rfl⟩
    rcases TaskQueue.mem_pending_accept.1 hq with rfl | hq
    · exact w.fades_task
    · rw [hempty] at hq
      cases hq
  obtain ⟨reply, h₁, hon, hS, hclock⟩ := ends_false_iff.1 hends
  obtain ⟨h', hrest⟩ := Run.exists_advances (w := w) rfl hformed spans hS (hclock ▸ htarget)
  exact ⟨h', .cons ⟨_, hon⟩ hrest⟩

/-! ## The course of a fade -/

/-- Every host that can be reached is in order. -/
theorem Course.ordered {runner : String} {platform : Platform} {steps : List Step}
    (hcourse : Course (Host.new runner platform) steps h) : Ordered h :=
  hcourse.preserves (fun fuel step => preserves_exec_enduring (fun _ : Unit => enduring_ordered)
    (fun _ hrun i => callsBack_ordered (hrun i)) fuel step ()) (ordered_new runner platform)

/-- **A fade ends exactly when it should.** Take any host that can be reached, and a scrollbar on it
that was last scrolled at some time. It is to be faded out, with a frame at every interval. There is
a first of these times by which it has faded; at all times before it shows, and at that time it does
not.

The fade is started, and steps follow that spare it, whatever goes on beside it; the last of them
advances the clock. If no part of any script interfered and the gate is open still, then the frames
that were seen are those that were due by then, at exactly the times they were due and as clear as
the scrollbar showed at them, up to and including the first at which it had faded. When that is
over, no frame waits any more, and as long as it is not, one does.

If nothing waits beside the fade and its frames call nothing back, then any advances come to their
ends. -/
theorem Course.fade_ends_on_time {runner : String} {platform : Platform} {history : List Step}
    (hcourse : Course (Host.new runner platform) history h) {name proxy : String}
    {number gate : Nat} {bar : Scrollbar} {awakened interval : Nanos}
    (hfade : Fadeable h name proxy number gate bar awakened) (hinterval : 0 < interval) :
    ∃ last : Nat,
      (∀ k : Nat, bar.HasFaded awakened (h.queue.now + k * interval) ↔ last ≤ k) ∧
      (∀ time, bar.opacityAt time = .ok (bar.opacityOf time)) ∧
      bar.opacityOf (h.queue.now + last * interval) = Transform.zero ∧
      (∀ k : Nat, k < last → Transform.zero < bar.opacityOf (h.queue.now + k * interval)) ∧
      (∀ {onFrame : Script} {before : List Step} {span : Nanos} {h' : Host Script},
        (∀ step ∈ before, step.Spares name) →
        Run h (.startFade name proxy interval onFrame :: before ++ [.advance span]) h' →
        h'.noted (isDisturbance name) = h.noted (isDisturbance name) →
        (h'.state.proxies.get? gate).map Proxy.shutDown = some false →
        h'.queue.now = h.queue.now + (before.map spanOf).sum + span ∧
        framesShown name h' = ((bar.frames h.queue.now interval (last + 1)).filter fun frame =>
          frame.2 ≤ h'.queue.now).reverse ++ framesShown name h ∧
        (h.queue.now + last * interval ≤ h'.queue.now →
          framesShown name h'
              = (bar.frames h.queue.now interval (last + 1)).reverse ++ framesShown name h ∧
            framesIn h'.queue name = 0) ∧
        (h'.queue.now < h.queue.now + last * interval → framesIn h'.queue name = 1)) ∧
      (h.queue.pending = [] → h.queue.now + last * interval ≤ longestSpan →
        ∀ spans : List Nanos, h.queue.now + spans.sum ≤ longestSpan →
          ∃ h', Run h (.startFade name proxy interval [] :: spans.map .advance) h') := by
  have hordered := hcourse.ordered
  obtain ⟨last, hlast⟩ := bar.exists_first_faded hfade.begun hinterval
  have hopacity := Scrollbar.opacityAt_eq_ok hfade.released hfade.scrolled hfade.formed
  refine ⟨last, hlast, fun time => (hopacity time).1,
    (hopacity _).2.1 ((hlast last).2 (Nat.le_refl _)),
    fun k hk => (hopacity _).2.2 fun hfaded => Nat.not_le.2 hk ((hlast k).1 hfaded), ?_,
    hfade.exists_run hordered hinterval hlast⟩
  intro onFrame before span h' hbefore hrun hquiet hopen
  let w := hfade.watch hinterval onFrame hlast
  have hinput := hfade.isInput_watch hinterval onFrame hlast
  -- the start, the steps up to the last advance, and that advance
  cases hrun with
  | cons hstart hrest =>
    obtain ⟨h₂, hbefore', hrest⟩ := run_append.1 hrest
    cases hrest with
    | cons hadvance hnil =>
      cases hnil
      have hF := hbefore'.fading hinput hbefore (hfade.fading_start hordered hinterval hlast hstart)
      rcases (hadvance.fading_advance hinput hF).2 with hdisturbed | ⟨hnow, hseen⟩
      · rcases hdisturbed with hinput | ⟨p, hp, hdown⟩
        · exact absurd hquiet (Nat.ne_of_gt hinput)
        · rw [show (h'.state.proxies.get? gate).map Proxy.shutDown = some p.shutDown from
            congrArg (Option.map Proxy.shutDown) hp, hdown] at hopen
          cases hopen
      · obtain ⟨hshown, hwaiting⟩ := hseen
        refine ⟨hnow, hshown, fun hover => ⟨?_, hwaiting.trans (if_pos hover)⟩, fun hless =>
          hwaiting.trans (if_neg (Nat.not_le.2 hless))⟩
        rw [← Scrollbar.filter_frames_eq_self hover]
        exact hshown

/-- Two scrollbars were scrolled. -/
def scrolled : List Step :=
  [.newProxy "io", .newScrollbar "bar" (.ofMillis 300) (.ofMillis 300),
    .newScrollbar "other" (.ofMillis 100) 0, .scroll "bar" none, .scroll "other" none]

/-- One of them is faded out, with a frame every 100 ms that looks at the runner and has the other
one fade as well. -/
def dimming : List Step :=
  [.startFade "bar" "io" (.ofMillis 100) [.runnerInfo, .startFade "other" "io" 7000000 []],
    .advance (.ofMillis 250), .scroll "other" none, .newStub "tab" none 0 [] none [] []]

/-- **The scrollbar is looked at seven times**, and cannot be seen any more only the last time:
neither the other fades nor where the advances end makes a difference. Alone, it comes to its end as
well. -/
theorem fade_ends_on_time_dimming :
    ∃ h h' bar, Course (Host.new "main" .desktop) scrolled h ∧
      Fadeable h "bar" "io" 0 0 bar 0 ∧ 0 < Nanos.ofMillis 100 ∧
      Run h (dimming ++ [.advance (.ofMillis 400)]) h' ∧
      (framesShown "bar" h').map (fun frame => (decide (Transform.zero < frame.1), frame.2))
        = [(false, .ofMillis 600), (true, .ofMillis 500), (true, .ofMillis 400),
          (true, .ofMillis 300), (true, .ofMillis 200), (true, .ofMillis 100), (true, 0)] ∧
      framesIn h'.queue "bar" = 0 ∧
      ∃ h', Run h [.startFade "bar" "io" (.ofMillis 100) [], .advance (.ofMillis 700)] h' := by
  have hcourse := course_endOf 9 scrolled (Host.new "main" .desktop)
  have hfade : Fadeable (endOf 9 scrolled (Host.new "main" .desktop)) "bar" "io" 0 0
      { awakened := some 0, opacity := Transform.one } 0 :=
    { named := by decide +kernel
      there := rfl
      released := rfl
      scrolled := rfl
      begun := Nat.zero_le _
      formed := by decide
      gated := by decide +kernel
      opened := by decide +kernel
      accepting := by decide +kernel
      idle := by decide +kernel }
  have hclock : (endOf 9 scrolled (Host.new "main" .desktop)).queue.now = 0 := by decide +kernel
  have hempty : (endOf 9 scrolled (Host.new "main" .desktop)).queue.pending = [] := rfl
  have hnone : framesShown "bar" (endOf 9 scrolled (Host.new "main" .desktop)) = [] := rfl
  obtain ⟨h', hrun, hquiet, hopen, hnow⟩ := Run.exists_of_after? 40
    (dimming ++ [.advance (.ofMillis 400)]) (h := endOf 9 scrolled (Host.new "main" .desktop))
    (P := fun h' => h'.noted (isDisturbance "bar")
        = (endOf 9 scrolled (Host.new "main" .desktop)).noted (isDisturbance "bar") ∧
      (h'.state.proxies.get? 0).map Proxy.shutDown = some false ∧
      Nanos.ofMillis 600 ≤ h'.queue.now)
    (by decide +kernel)
  generalize endOf 9 scrolled (Host.new "main" .desktop) = h at *
  obtain ⟨last, hlast, -, hover, hbefore, hcourses, halone⟩ :=
    hcourse.fade_ends_on_time hfade (by decide : 0 < Nanos.ofMillis 100)
  rw [hclock] at hlast hover
  obtain rfl : last = 6 := by
    have hle : last ≤ 6 := (hlast 6).1 (by decide)
    have hnot : ¬ last ≤ 5 := mt (hlast 5).2 (by decide)
    omega
  obtain ⟨-, -, hall, -⟩ := hcourses (by simp [Spares, disturbs]) hrun hquiet hopen
  obtain ⟨hshown, hwaiting⟩ := hall (hclock ▸ hnow)
  rw [hclock, hnone, List.append_nil] at hshown
  rw [hclock] at hbefore
  have hshows {k : Nat} (hk : k ∈ List.range 7) :
      decide (Transform.zero < Scrollbar.opacityOf { awakened := some 0, opacity := Transform.one }
        (0 + k * .ofMillis 100)) = decide (k < 6) := by
    rcases Nat.lt_succ_iff_lt_or_eq.1 (List.mem_range.1 hk) with hless | rfl
    · rw [decide_eq_true hless, decide_eq_true (hbefore k hless)]
    · rw [hover]
      decide
  refine ⟨h, h', _, hcourse, hfade, by decide, hrun, ?_, hwaiting,
    halone hempty (hclock ▸ by decide) [.ofMillis 700] (hclock ▸ by decide)⟩
  have hlist : (List.range 7).reverse.map
        (fun k => (decide (k < 6), 0 + k * Nanos.ofMillis 100))
      = [(false, .ofMillis 600), (true, .ofMillis 500), (true, .ofMillis 400),
        (true, .ofMillis 300), (true, .ofMillis 200), (true, .ofMillis 100), (true, 0)] := by
    decide
  rw [hshown, ← hlist, Scrollbar.frames, ← List.map_reverse, List.map_map]
  exact List.map_congr_left fun k hk => Prod.ext (hshows (List.mem_reverse.1 hk)) rfl

end Compositor.Step
