import Compositor.Proofs.Scenario.Stopping

/-!
# A limiter that is stopped by whom it calls

A check fetches its targets once. It makes the context wait, tells the client and, if it had its
turn in the queue, posts the next check, and on the way it does not look again whether the limiter
is still active. So if the context stops the limiter, this takes effect only when the check is
over: the client is told once more, and one more check is posted, which will find nothing to do.
Only a context whose callback is halted keeps the check from going on.
-/

namespace Compositor

namespace Host

open Compositor.Action

variable {S : Type} {run : S → Act S Unit} {h : Host S} {number : Nat} {l : Limiter}
  {t : LimiterTargets} {c : RateContext S} {d : RateClient S}

/-- The host when a context is about to be made to wait, with the targets of its limiter in use. -/
def waiting (h : Host S) (t : LimiterTargets) (c : RateContext S) : Host S :=
  { h with state := { h.state with
    inUse := [.context t.context, .client t.client] ++ h.state.inUse
    events := .wait c.name :: h.state.events } }

/-- The host when a client is about to be told. -/
def telling (h : Host S) (d : RateClient S) : Host S :=
  { h with state := { h.state with events := .limit d.name :: h.state.events } }

/-- The host when the two that were last taken into use are not in use any more. -/
def released (h : Host S) : Host S :=
  { h with state := { h.state with inUse := h.state.inUse.drop 2 } }

/-- **Calling the targets** is making the context wait and then, unless this was halted, telling
the client. -/
theorem ends_callTargets_of_waited {Q : Unit → Host S → Prop} {E : Halt → Host S → Prop}
    (hc : h.state.contexts.get? t.context = some c)
    (hwait : (run c.onWait).Ends (waiting h t c)
      (fun _ h₁ => ∃ d, h₁.state.clients.get? t.client = some d ∧
        (run d.onLimit).Ends (telling h₁ d) (fun _ h₂ => Q () (released h₂))
          fun halt h₂ => E halt (released h₂))
      fun halt h₁ => E halt (released h₁)) :
    (callTargets run t).Ends h Q E := by
  unfold callTargets holding
  rw [ends_around, ends_bind, ends_residents]
  dsimp only
  rw [hc]
  dsimp only
  simp only [ends_bind]
  rw [ends_emit]
  refine hwait.imp (fun _ h₁ htell => ?_) fun _ _ => id
  obtain ⟨d, hd, htold⟩ := htell
  rw [ends_residents]
  simp only [hd]
  rw [ends_bind, ends_emit]
  exact htold

/-- A check is posted if the runner takes it. -/
theorem ends_postCheck_cases (hl : h.state.limiters.get? number = some l) (delay : Nanos) :
    (postCheck number delay : Act S Unit).Ends h
      (fun _ h' => h' = if h.queue.accepting
        then { h with queue := h.queue.accept (.proxied l.proxy (.check number)) delay } else h)
      fun _ h' => h' = h := by
  unfold postCheck
  rw [ends_bind, ends_residents, hl]
  refine (ends_map ..).2 ?_
  unfold postVia EventLoop.post
  simp only [ends_bind, ends_get, ends_ofExcept]
  cases hpost : h.queue.post (.proxied l.proxy (.check number)) delay with
  | error f => trivial
  | ok posted =>
    obtain ⟨accepted, queue⟩ := posted
    obtain ⟨rfl, rfl⟩ := TaskQueue.post_eq_ok hpost
    cases haccepts : h.queue.accepting <;> rfl

/-- An active limiter whose targets are there calls them. -/
theorem ends_limitNow_of_reached {Q : Bool → Host S → Prop} {E : Halt → Host S → Prop}
    (hl : h.state.limiters.get? number = some l) (hactive : l.phase = .active)
    (ht : l.targets = some t) (halive : areAlive h.state t = true)
    (hcall : (callTargets run t).Ends h (fun _ => Q true) E) :
    (limitNow run number).Ends h Q E := by
  refine ends_limitNow number (fun hinactive => absurd hactive (hinactive l hl))
    (fun l' hl' _ hgone => ?_) fun l' t' hl' _ ht' => ?_
  · obtain rfl := Option.some.inj (hl.symm.trans hl')
    exact absurd halive (by rw [hgone t ht]; exact Bool.false_ne_true)
  · obtain rfl := Option.some.inj (hl.symm.trans hl')
    obtain rfl := Option.some.inj (ht.symm.trans ht')
    exact hcall

/-- A check that throttled goes on to post the next one; throttling that is halted halts it. -/
theorem ends_runCheck_of_limitNow {P Q : Host S → Prop} {E : Halt → Host S → Prop}
    (hlimit : (limitNow run number).Ends h (fun reached h' => reached = true ∧ P h') E)
    (hnext : ∀ h', P h' → ∃ l, h'.state.limiters.get? number = some l ∧
      (postCheck number l.interval).Ends h' (fun _ => Q) E) :
    (runCheck run number).Ends h (fun _ => Q) E := by
  unfold runCheck
  rw [ends_bind]
  refine hlimit.imp (fun reached h' hreached => ?_) fun _ _ => id
  obtain ⟨rfl, hP⟩ := hreached
  obtain ⟨l, hl, hpost⟩ := hnext h' hP
  rw [if_pos rfl, ends_bind, ends_residents]
  simp only [hl]
  exact hpost

section Quitting

variable (hl : h.state.limiters.get? number = some l) (hactive : l.phase = .active)
  (ht : l.targets = some t) (halive : areAlive h.state t = true)
  (hc : h.state.contexts.get? t.context = some c)

include hl hactive ht halive hc

/-- A context whose callback is halted halts the check, and nobody else is told. -/
theorem ends_limitNow_of_halted {halt : Halt} {h₁ : Host S}
    (hon : (run c.onWait).on (waiting h t c) = (.error halt, h₁)) :
    (limitNow run number).Ends h (fun _ _ => False)
      fun halt' h' => halt' = halt ∧ h' = released h₁ := by
  refine ends_limitNow_of_reached hl hactive ht halive (ends_callTargets_of_waited hc ?_)
  unfold Ends
  rw [hon]
  exact ⟨rfl, rfl⟩

variable (hrun : ∀ base script, (run script).Preserves (Afterwards base) (Afterwards base))
  (hd : h.state.clients.get? t.client = some d) {h₁ : Host S}
  (hon : (run c.onWait).on (waiting h t c) = (.ok (), h₁))

include hrun hd hon

/-- **The client is told whatever the context did**, and limiters go forward from there. -/
theorem ends_limitNow_of_waited :
    (limitNow run number).Ends h
      (fun reached h' => reached = true ∧ Afterwards (telling h₁ d) h')
      fun _ => Afterwards (telling h₁ d) := by
  have hwaited : Afterwards (waiting h t c) h₁ := (hrun _ _ _ (.refl _)).of_on hon
  have hreleased {h₂ : Host S} (hh : Afterwards (telling h₁ d) h₂) :
      Afterwards (telling h₁ d) (released h₂) := (enduring_afterwards _).aside hh rfl
  have htold : (run d.onLimit).Ends (telling h₁ d)
      (fun _ h₂ => true = true ∧ Afterwards (telling h₁ d) (released h₂))
      fun _ h₂ => Afterwards (telling h₁ d) (released h₂) :=
    (hrun _ d.onLimit _ (.refl _)).imp (fun _ _ hh => ⟨rfl, hreleased hh⟩) fun _ _ => hreleased
  refine ends_limitNow_of_reached hl hactive ht halive (ends_callTargets_of_waited hc ?_)
  refine (on_eq_ok_iff.1 hon).imp (fun _ _ hsame => ?_) fun _ _ => False.elim
  obtain ⟨-, rfl⟩ := hsame
  exact ⟨d, hwaited.clients hd, htold⟩

/-- A check that has its turn posts the next one whatever the context did, if the runner takes
it. -/
theorem ends_runCheck_of_waited :
    (runCheck run number).Ends h
      (fun _ h' => ∃ h₂, Afterwards (telling h₁ d) h₂ ∧ h' = if h₂.queue.accepting
        then { h₂ with
          queue := h₂.queue.accept (.proxied l.proxy (.check number)) l.interval } else h₂)
      fun _ => Afterwards (telling h₁ d) := by
  have hwaited : Afterwards (waiting h t c) h₁ := (hrun _ _ _ (.refl _)).of_on hon
  refine ends_runCheck_of_limitNow (ends_limitNow_of_waited hl hactive ht halive hc hrun hd hon)
    fun h₂ hh => ?_
  obtain ⟨l₁, hl₁, hbecame⟩ := hwaited.stays hl
  obtain ⟨l₂, hl₂, hbecomes⟩ := hh.stays hl₁
  refine ⟨l₂, hl₂, (ends_postCheck_cases hl₂ l₂.interval).imp (fun _ h' hposted => ?_) ?_⟩
  · rw [(hbecame.trans hbecomes).proxy, (hbecame.trans hbecomes).interval] at hposted
    exact ⟨h₂, hh, hposted⟩
  · rintro _ _ rfl
    exact hh

end Quitting

end Host

namespace Step

open Compositor.Action Host

/-- Scripts that are called back take limiters forward. -/
theorem preserves_runScript_afterwards (fuel : Nat) (base : Host Script) (script : Script) :
    (runScript fuel script).Preserves (Afterwards base) (Afterwards base) :=
  .forM fun inner _ => (preserves_exec_afterwards fuel inner base).bind fun _ =>
    (enduring_afterwards base).emit rfl rfl rfl

/-- **A stop from inside a check takes effect when the check is over.** A check of an active
limiter finds both of its targets. The callbacks may do whatever takes limiters forward, as all
steps do. Suppose the context stops the limiter while it is made to wait.

If its callback is halted all the same, nobody else is told and nothing is posted, be it that the
limiter throttles at once or that its check has its turn. If the callback comes to its end, then
in both ways the client is told once more, and from then on the limiter is inert; a limiter that
throttles at once answers that it reached its targets, and a check that has its turn posts one more
check if the runner takes it. At any later time that check has its turn in vain. -/
theorem stop_takes_effect_after_check {run : Script → Act Script Unit} {h : Host Script}
    {number : Nat} {l : Limiter} {t : LimiterTargets} {c : RateContext Script}
    {d : RateClient Script}
    (hrun : ∀ base script, (run script).Preserves (Afterwards base) (Afterwards base))
    (hl : h.state.limiters.get? number = some l) (hactive : l.phase = .active)
    (ht : l.targets = some t) (halive : areAlive h.state t = true)
    (hc : h.state.contexts.get? t.context = some c)
    (hd : h.state.clients.get? t.client = some d) :
    (∀ halt h₁, (run c.onWait).on (waiting h t c) = (.error halt, h₁) →
      (Host.limitNow run number).Ends h (fun _ _ => False)
        (fun halt' h' => halt' = halt ∧ h' = released h₁) ∧
      (Host.runCheck run number).Ends h (fun _ _ => False)
        fun halt' h' => halt' = halt ∧ h' = released h₁) ∧
    ∀ h₁, (run c.onWait).on (waiting h t c) = (.ok (), h₁) → HasStopped h₁ number →
      (Host.limitNow run number).Ends h
        (fun reached h' => reached = true ∧ Inert (telling h₁ d) h' number)
        (fun _ h' => Inert (telling h₁ d) h' number) ∧
      (Host.runCheck run number).Ends h
        (fun _ h' => ∃ h₂, Inert (telling h₁ d) h₂ number ∧
          h' = (if h₂.queue.accepting then { h₂ with
            queue := h₂.queue.accept (.proxied l.proxy (.check number)) l.interval } else h₂) ∧
          ∀ h₃, Afterwards h' h₃ → Inert h' h₃ number)
        fun _ h' => Inert (telling h₁ d) h' number := by
  refine ⟨fun halt h₁ hon => ?_, fun h₁ hon hstopped => ?_⟩
  · have hlimit := ends_limitNow_of_halted hl hactive ht halive hc hon
    exact ⟨hlimit, ends_runCheck_of_limitNow (P := fun _ => False)
      (hlimit.imp (fun _ _ => False.elim) fun _ _ => id) fun _ => False.elim⟩
  · have hinert {h' : Host Script} (hh : Afterwards (telling h₁ d) h') :
        Inert (telling h₁ d) h' number := hh.inert hstopped
    refine ⟨(ends_limitNow_of_waited hl hactive ht halive hc hrun hd hon).imp
      (fun _ _ hh => ⟨hh.1, hinert hh.2⟩) fun _ _ => hinert,
      (ends_runCheck_of_waited hl hactive ht halive hc hrun hd hon).imp (fun _ h' hh => ?_)
        fun _ _ => hinert⟩
    obtain ⟨h₂, hh, hposted⟩ := hh
    refine ⟨h₂, hinert hh, hposted, fun h₃ hlater => hlater.inert ?_⟩
    have hstopped₂ := (hinert hh).stopped
    rw [hposted]
    split <;> exact hstopped₂

/-- A limiter whose context stops it as soon as it is made to wait, and whose client tries to go on
with it when it is told. -/
def defiant : List Step :=
  [.newProxy "io", .newClient "ui" [.startLimiter "lim", .limitNow "lim"],
    .newContext "tab" 5 [.stopLimiter "lim"], .newLimiter "lim" "tab" "ui" "io" 16,
    .startLimiter "lim"]

/-- The client is told and tries in vain; the limiter answers that it reached both. -/
theorem stop_takes_effect_after_check_defiant :
    ∃ h h₁ h' : Host Script, Run (Host.new "main" .desktop) defiant h ∧
      (runScript 8 [.stopLimiter "lim"]).on (waiting h ⟨0, 0⟩ ⟨"tab", 5, [.stopLimiter "lim"]⟩)
        = (.ok (), h₁) ∧
      HasStopped h₁ 0 ∧ (Host.limitNow (runScript 8) 0).on h = (.ok true, h') ∧
      Inert (telling h₁ ⟨"ui", [.startLimiter "lim", .limitNow "lim"]⟩) h' 0 := by
  have hafter : after? 9 defiant (Host.new "main" .desktop)
      = some (endOf 9 defiant (Host.new "main" .desktop)) := rfl
  have hl : (endOf 9 defiant (Host.new "main" .desktop)).state.limiters.get? 0
      = some ⟨5, 0, 16, .active, some ⟨0, 0⟩⟩ := rfl
  obtain ⟨-, hinert⟩ := stop_takes_effect_after_check (t := ⟨0, 0⟩)
    (c := ⟨"tab", 5, [.stopLimiter "lim"]⟩) (d := ⟨"ui", [.startLimiter "lim", .limitNow "lim"]⟩)
    (preserves_runScript_afterwards 8) hl rfl rfl rfl rfl rfl
  obtain ⟨hlimit, -⟩ := hinert _ rfl ⟨_, rfl, rfl⟩
  refine ⟨_, _, _, .of_after? hafter, rfl, ⟨_, rfl, rfl⟩, rfl, ?_⟩
  exact (hlimit.of_on rfl).2

/-- **The check that stopped its own limiter goes on.** Its turn in the queue comes, the context is
made to wait and stops the limiter, and then the client is told and another check is posted, which
has its turn in vain. It is the same when the limiter throttles at once, but for that check. -/
theorem check_outlasts_stop :
    ∃ h h₁ h₂ h₃, Run (Host.new "main" .desktop) defiant h ∧
      Does h .runNext (.flag true) h₁ ∧ HasStopped h₁ 0 ∧ checksIn h₁.queue 0 = 1 ∧
      h₁.state.events = .did [.limitNow "lim"] (.flag false) :: .did [.startLimiter "lim"] .done ::
        .limit "ui" :: .did [.stopLimiter "lim"] .done :: .wait "tab" :: h.state.events ∧
      Does h₁ .runNext (.flag true) h₂ ∧ h₂.state.events = h₁.state.events ∧
      Does h (.limitNow "lim") (.flag true) h₃ ∧ HasStopped h₃ 0 ∧
      h₃.state.events = h₁.state.events := by
  have hafter : after? 9 defiant (Host.new "main" .desktop)
      = some (endOf 9 defiant (Host.new "main" .desktop)) := rfl
  exact ⟨_, _, _, _, .of_after? hafter, ⟨9, rfl⟩, ⟨_, rfl, rfl⟩, rfl, rfl, ⟨9, rfl⟩, rfl, ⟨9, rfl⟩,
    ⟨_, rfl, rfl⟩, rfl⟩

end Step

end Compositor
