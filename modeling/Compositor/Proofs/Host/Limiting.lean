import Compositor.Host.Running
import Compositor.Proofs.Host.Ends

/-!
# How the actions of limiters end

All that a limiter does to a host is to post its checks, to change its own phase, and to call
its targets. The rules here follow these actions to their ends, on a host whose queue takes
posts. A property that survives calls survives whatever a limiter calls; at one point only,
when the client is told, it may turn into another one. So a rule for a call speaks of the
property before and the one after.
-/

namespace Compositor

/-- Whether the task is a check of a limiter, behind whatever gates and guards. -/
def Task.checks {S : Type} (limiter : Nat) : Task S → Bool
  | .check number => number == limiter
  | .guarded _ task => task.checks limiter
  | .proxied _ task => task.checks limiter
  | _ => false

@[simp] theorem Task.checks_check {S : Type} (proxy number limiter : Nat) :
    (Task.proxied proxy (.check number) : Task S).checks limiter = (number == limiter) :=
  rfl

namespace Host

open Compositor.Action

variable {S : Type} {Good : S → Prop}

/-- A task is a good script, maybe behind a gate, or a check of a limiter behind the limiter's
own gate. -/
inductive IsThrottling (Good : S → Prop) (limiters : Roster Limiter) : Task S → Prop where
  | scripted {label : String} {script : S} (hgood : Good script) :
    IsThrottling Good limiters (.scripted label script)
  | proxied {proxy : Nat} {label : String} {script : S} (hgood : Good script) :
    IsThrottling Good limiters (.proxied proxy (.scripted label script))
  | check {number proxy : Nat} (hproxy : (limiters.get? number).map Limiter.proxy = some proxy) :
    IsThrottling Good limiters (.proxied proxy (.check number))

/-- A task stays what it is while limiters keep their gates, though they change and there may be
more of them. -/
theorem IsThrottling.mono {limiters limiters' : Roster Limiter} {task : Task S}
    (h : IsThrottling Good limiters task)
    (hkeep : ∀ number l, limiters.get? number = some l →
      ∃ l', limiters'.get? number = some l' ∧ l'.proxy = l.proxy) :
    IsThrottling Good limiters' task := by
  cases h with
  | scripted hgood => exact .scripted hgood
  | proxied hgood => exact .proxied hgood
  | check hproxy =>
    obtain ⟨l, hl, rfl⟩ := Option.map_eq_some_iff.1 hproxy
    obtain ⟨l', hl', heq⟩ := hkeep _ l hl
    exact .check (Option.map_eq_some_iff.2 ⟨l', hl', heq⟩)

/-- **What waits and what is called back is in order**: the queue takes posts and is in time, its
tasks are good scripts or checks, and the targets of limiters do what is good. -/
structure Regular (Good : S → Prop) (limiters : Roster Limiter)
    (contexts : Roster (RateContext S)) (clients : Roster (RateClient S))
    (queue : TaskQueue (Task S)) : Prop where
  accepting : queue.accepting = true
  inTime : queue.InTime
  plain {q : Pending (Task S)} (hq : q ∈ queue.pending) : IsThrottling Good limiters q.task
  onWait {c : RateContext S} (hc : c ∈ contexts.members) : Good c.onWait
  onLimit {c : RateClient S} (hc : c ∈ clients.members) : Good c.onLimit

namespace Regular

variable {limiters limiters' : Roster Limiter} {contexts : Roster (RateContext S)}
  {clients : Roster (RateClient S)} {queue : TaskQueue (Task S)}

theorem accept (hR : Regular Good limiters contexts clients queue) {task : Task S}
    (htask : IsThrottling Good limiters task) (delay : Nanos) :
    Regular Good limiters contexts clients (queue.accept task delay) :=
  { hR with
    inTime := hR.inTime.accept task delay
    plain := fun hq => by
      rcases TaskQueue.mem_pending_accept.1 hq with rfl | hq
      · exact htask
      · exact hR.plain hq }

theorem without (hR : Regular Good limiters contexts clients queue) {q : Pending (Task S)}
    {rest : List (Pending (Task S))} (hpending : queue.pending = q :: rest) :
    Regular Good limiters contexts clients (queue.without q rest) :=
  { hR with
    inTime := hR.inTime.without hpending
    plain := fun hr => hR.plain (hpending ▸ List.mem_cons_of_mem _ hr) }

theorem moved (hR : Regular Good limiters contexts clients queue) {deadline : Nanos}
    (hnone : queue.popDue deadline = none) :
    Regular Good limiters contexts clients { queue with now := deadline } :=
  { hR with inTime := hR.inTime.moved hnone }

theorem changeLimiters (hR : Regular Good limiters contexts clients queue)
    (hkeep : ∀ number l, limiters.get? number = some l →
      ∃ l', limiters'.get? number = some l' ∧ l'.proxy = l.proxy) :
    Regular Good limiters' contexts clients queue :=
  { hR with plain := fun hq => (hR.plain hq).mono hkeep }

/-- One limiter changes. -/
theorem updateLimiter (hR : Regular Good limiters contexts clients queue) (number : Nat)
    {f : Limiter → Limiter}
    (hproxy : ∀ l, limiters.get? number = some l → (f l).proxy = l.proxy) :
    Regular Good (limiters.update number f) contexts clients queue := by
  refine hR.changeLimiters fun n l hl => ?_
  by_cases heq : n = number
  · subst heq
    exact ⟨f l, Roster.get?_update_of_some hl f, hproxy l hl⟩
  · exact ⟨l, by rw [Roster.get?_update_of_ne _ _ heq, hl], rfl⟩

/-- A context that gives up its name is still there, and so is a client. -/
theorem forgetContext (hR : Regular Good limiters contexts clients queue) (name : String) :
    Regular Good limiters (contexts.forget name) clients queue :=
  { hR with
    onWait := fun hc => by
      rw [Roster.members_forget] at hc
      exact hR.onWait hc }

theorem forgetClient (hR : Regular Good limiters contexts clients queue) (name : String) :
    Regular Good limiters contexts (clients.forget name) queue :=
  { hR with
    onLimit := fun hc => by
      rw [Roster.members_forget] at hc
      exact hR.onLimit hc }

end Regular

variable {run : S → Act S Unit} {P Q : Host S → Prop} {h : Host S}

/-! ## Posting, starting and stopping -/

/-- A limiter that is there posts its check. -/
theorem ends_postCheck (haccepting : h.queue.accepting = true) (number : Nat) (delay : Nanos)
    (hnone : h.state.limiters.get? number = none → Q h)
    (hpost : ∀ l, h.state.limiters.get? number = some l →
      Q { h with queue := h.queue.accept (.proxied l.proxy (.check number)) delay }) :
    (postCheck number delay : Act S Unit).Ends h (fun _ => Q) fun _ _ => True := by
  unfold postCheck
  rw [ends_bind, ends_residents]
  cases hl : h.state.limiters.get? number with
  | none => exact hnone hl
  | some l => exact (ends_map ..).2 (ends_post_accepting haccepting (hpost l hl))

/-- **An idle limiter is started** and posts its first check; any other start does nothing. -/
theorem ends_startLimiter (haccepting : h.queue.accepting = true) (number : Nat)
    (hsame : (∀ l, h.state.limiters.get? number = some l → l.phase ≠ .idle) → Q h)
    (hstart : ∀ l, h.state.limiters.get? number = some l → l.phase = .idle →
      Q { state := { h.state with
            limiters := h.state.limiters.update number fun _ => { l with phase := .active } }
          queue := h.queue.accept (.proxied l.proxy (.check number)) 0 }) :
    (startLimiter number : Act S Unit).Ends h (fun _ => Q) fun _ _ => True := by
  unfold startLimiter
  rw [ends_bind, ends_residents]
  cases hl : h.state.limiters.get? number with
  | none => exact hsame fun l hl' => nomatch hl.symm.trans hl'
  | some l =>
    rw [Option.bind_some]
    unfold Limiter.start?
    by_cases hidle : l.phase = .idle
    · rw [if_pos hidle]
      have hself : (h.state.limiters.update number fun _ => { l with phase := .active }).get? number
          = some { l with phase := .active } := Roster.get?_update_of_some hl _
      refine ends_postCheck (h := { h with state := { h.state with
        limiters := h.state.limiters.update number fun _ => { l with phase := .active } } })
        haccepting number 0 (fun hnone => nomatch hself.symm.trans hnone) fun l' hl' => ?_
      obtain rfl := Option.some.inj (hself.symm.trans hl')
      exact hstart l hl hidle
    · rw [if_neg hidle]
      refine hsame fun l' hl' => ?_
      obtain rfl := Option.some.inj (hl.symm.trans hl')
      exact hidle

/-! ## Stopping through a registry -/

section Registries

variable {E : Host S → Prop} {name : String}
  (hstop : ∀ id, (registryStop name id : Act S Unit).Preserves P E)

include hstop

/-- What is preserved as one limiter of a registry is stopped is preserved as all of them are. -/
theorem preserves_registryStopAll : (registryStopAll name : Act S Unit).Preserves P E := by
  refine preserves_residents.bind fun r => ?_
  split
  · exact .pure _
  · exact .forM fun id _ => hstop id

/-- It is preserved as the registry is let go of, too. -/
theorem preserves_dropRegistry
    (herase : ∀ h, P h → P { h with state := { h.state with
      registries := h.state.registries.erase name } }) :
    (dropRegistry name : Act S Unit).Preserves P E :=
  (preserves_registryStopAll hstop).bind fun _ => preserves_change herase

end Registries

/-! ## Shutting gates -/

theorem preserves_shutdownProxy {E : Host S → Prop} (hE : ∀ h, P h → E h)
    {proxy : Nat} (hproxies : ∀ h p onThread, P h → h.state.proxies.get? proxy = some p →
      P { h with state := { h.state with
        proxies := h.state.proxies.update proxy fun _ => (p.shutdown onThread).2 } }) :
    (shutdownProxy proxy : Act S Unit).Preserves P E := by
  intro h hh
  unfold shutdownProxy
  rw [ends_bind, ends_residents]
  cases hp : h.state.proxies.get? proxy with
  | none => exact hh
  | some p =>
    have hchanged := hproxies h p h.state.onThread hh hp
    exact Preserves.ofExcept hE _ _ hchanged

/-- **A gate is shut** that is open; any other attempt faults. -/
theorem ends_shutdownProxy (proxy : Nat)
    (hnone : h.state.proxies.get? proxy = none → Q h)
    (hshut : ∀ p, h.state.proxies.get? proxy = some p →
      Q { h with state := { h.state with
        proxies := h.state.proxies.update proxy fun _ => { p with shutDown := true } } }) :
    (shutdownProxy proxy : Act S Unit).Ends h (fun _ => Q) fun _ _ => True := by
  unfold shutdownProxy
  rw [ends_bind, ends_residents]
  cases hp : h.state.proxies.get? proxy with
  | none => exact hnone hp
  | some p =>
    simp only [ends_bind, ends_change, ends_ofExcept]
    unfold Proxy.shutdown
    by_cases hthread : h.state.onThread = true
    · rw [if_pos hthread]
      by_cases hdown : p.shutDown = true
      · rw [if_pos hdown]
        trivial
      · rw [if_neg hdown]
        exact hshut p hp
    · rw [if_neg hthread]
      trivial

/-! ## Calling targets -/

/-- **A property survives calls**: whatever a limiter calls is good, running what is good keeps
the property, and so does all that happens around it, but for telling the client. -/
structure CallStable (run : S → Act S Unit) (Good : S → Prop) (P : Host S → Prop) : Prop where
  run {script : S} (hgood : Good script) : (run script).Keeps P
  onWait {h : Host S} {number : Nat} {c : RateContext S} (hP : P h)
    (hc : h.state.contexts.get? number = some c) : Good c.onWait
  onLimit {h : Host S} {number : Nat} {c : RateClient S} (hP : P h)
    (hc : h.state.clients.get? number = some c) : Good c.onLimit
  inUse (h : Host S) (inUse : List InUse) (hP : P h) : P { h with state := { h.state with inUse } }
  ran (label : String) (now : Nanos) : (emit (.run label now)).Keeps P
  wait (name : String) : (emit (.wait name)).Keeps P
  drop (proxy : Nat) :
    (change fun r => { r with proxies := r.proxies.update proxy Proxy.drop }).Keeps P

/-- **The client is told**, if it is still there. -/
theorem ends_tellClient (hQ : CallStable run Good Q) (number : Nat)
    (htell : ∀ c, h.state.clients.get? number = some c →
      Q { h with state := { h.state with events := .limit c.name :: h.state.events } })
    (hnone : h.state.clients.get? number = none → Q h) :
    (do
      if let some client := (← residents).clients.get? number then
        emit (.limit client.name)
        run client.onLimit : Act S PUnit).Ends h (fun _ => Q) fun _ _ => True := by
  rw [ends_bind, ends_residents]
  cases hc : h.state.clients.get? number with
  | none => exact hnone hc
  | some client =>
    have htold := htell client hc
    exact hQ.run (hQ.onLimit htold hc) _ htold

/-- **The targets are called**, followed from the moment when the context is made to wait. What
holds from there on and survives calls holds until the client is told, and then what telling it
makes of that, if it survives calls as well. -/
theorem ends_callTargets_from (hP : CallStable run Good P) (hQ : CallStable run Good Q)
    (t : LimiterTargets)
    (hwait : ∀ c, h.state.contexts.get? t.context = some c →
      P { h with state := { h.state with
        inUse := [.context t.context, .client t.client] ++ h.state.inUse
        events := .wait c.name :: h.state.events } })
    (hgone : h.state.contexts.get? t.context = none → P { h with state := { h.state with
      inUse := [.context t.context, .client t.client] ++ h.state.inUse } })
    (htell : ∀ h c, P h → h.state.clients.get? t.client = some c →
      Q { h with state := { h.state with events := .limit c.name :: h.state.events } })
    (hnone : ∀ h, P h → h.state.clients.get? t.client = none → Q h) :
    (callTargets run t).Ends h (fun _ => Q) fun _ _ => True := by
  unfold callTargets holding
  rw [ends_around]
  refine Ends.imp (E := fun _ _ => True) (Q := fun _ => Q) ?_ (fun _ h' hh' => hQ.inUse h' _ hh')
    fun _ _ _ => trivial
  rw [ends_bind, ends_residents]
  dsimp only
  cases hc : h.state.contexts.get? t.context with
  | none => exact ends_tellClient hQ t.client (fun c => htell _ c (hgone hc)) (hnone _ (hgone hc))
  | some context =>
    dsimp only
    simp only [ends_bind]
    rw [ends_emit]
    have hwaited := hwait context hc
    exact (hP.run (hP.onWait hwaited hc) _ hwaited).imp
      (fun _ h' hh' => ends_tellClient hQ t.client (fun c => htell h' c hh') (hnone h' hh'))
      fun _ _ _ => trivial

/-- The same for what holds before the call already. -/
theorem ends_callTargets (hP : CallStable run Good P) (hQ : CallStable run Good Q)
    (t : LimiterTargets)
    (htell : ∀ h c, P h → h.state.clients.get? t.client = some c →
      Q { h with state := { h.state with events := .limit c.name :: h.state.events } })
    (hnone : ∀ h, P h → h.state.clients.get? t.client = none → Q h) (hh : P h) :
    (callTargets run t).Ends h (fun _ => Q) fun _ _ => True := by
  have hused := hP.inUse h ([.context t.context, .client t.client] ++ h.state.inUse) hh
  refine ends_callTargets_from hP hQ t (fun c _ => ?_) (fun _ => hused) htell hnone
  exact (ends_emit _).1 (hP.wait c.name _ hused)

/-- **Throttling once.** A limiter that is not active does nothing; one whose targets are gone
stops; any other calls them. -/
theorem ends_limitNow {Q : Bool → Host S → Prop} {E : Halt → Host S → Prop} (number : Nat)
    (hinactive : (∀ l, h.state.limiters.get? number = some l → l.phase ≠ .active) → Q false h)
    (horphaned : ∀ l, h.state.limiters.get? number = some l → l.phase = .active →
      (∀ t, l.targets = some t → areAlive h.state t = false) →
      Q false { h with state := { h.state with
        limiters := h.state.limiters.update number Limiter.stop } })
    (hreached : ∀ l t, h.state.limiters.get? number = some l → l.phase = .active →
      l.targets = some t →
      (callTargets run t).Ends h (fun _ => Q true) E) :
    (limitNow run number).Ends h Q E := by
  unfold limitNow
  rw [ends_bind, ends_residents]
  cases hl : h.state.limiters.get? number with
  | none => exact hinactive fun l hl' => nomatch hl.symm.trans hl'
  | some l =>
    dsimp only
    unfold Limiter.check
    by_cases hactive : l.phase = .active
    · rw [if_pos hactive]
      cases htargets : l.targets with
      | none => exact horphaned l hl hactive fun t ht => nomatch htargets.symm.trans ht
      | some t =>
        cases halive : areAlive h.state t with
        | true =>
          dsimp only
          rw [if_pos halive, ends_bind]
          exact hreached l t hl hactive htargets
        | false =>
          dsimp only
          rw [if_neg (by rw [halive]; exact Bool.false_ne_true)]
          refine horphaned l hl hactive fun t' ht' => ?_
          obtain rfl := Option.some.inj (htargets.symm.trans ht')
          exact halive
    · rw [if_neg hactive]
      refine hinactive fun l' hl' => ?_
      obtain rfl := Option.some.inj (hl.symm.trans hl')
      exact hactive

/-- **A check** that reached its targets posts the next one. -/
theorem ends_runCheck (number : Nat)
    (hlimit : (limitNow run number).Ends h (fun reached => if reached then P else Q)
      fun _ _ => True)
    (haccepting : ∀ h, P h → h.queue.accepting = true)
    (hnone : ∀ h, P h → h.state.limiters.get? number = none → Q h)
    (hpost : ∀ h l, P h → h.state.limiters.get? number = some l →
      Q { h with queue := h.queue.accept (.proxied l.proxy (.check number)) l.interval }) :
    (runCheck run number).Ends h (fun _ => Q) fun _ _ => True := by
  unfold runCheck
  rw [ends_bind]
  refine hlimit.imp (fun reached h' hh' => ?_) fun _ _ _ => trivial
  cases reached with
  | false => exact hh'
  | true =>
    have hh' : P h' := hh'
    rw [if_pos rfl, ends_bind, ends_residents]
    cases hl : h'.state.limiters.get? number with
    | none => exact hnone h' hh' hl
    | some l =>
      refine ends_postCheck (haccepting h' hh') number l.interval (hnone h' hh') fun l' hl' => ?_
      obtain rfl := Option.some.inj (hl.symm.trans hl')
      exact hpost h' l hh' hl

/-! ## What calls back

What these actions preserve follows from what their parts do, whatever the property. -/

section Calling

variable {E : Host S → Prop}

/-- The targets of a limiter are called. -/
theorem preserves_callTargets {t : LimiterTargets}
    (hholding : ∀ (objects : List InUse) {a : Act S PUnit}, a.Preserves P E →
      (holding objects a).Preserves P E)
    (hwait : ∀ h c, P h → h.state.contexts.get? t.context = some c →
      P { h with state := { h.state with events := .wait c.name :: h.state.events } })
    (hlimit : ∀ h c, P h → h.state.clients.get? t.client = some c →
      P { h with state := { h.state with events := .limit c.name :: h.state.events } })
    (hrun : ∀ script, (run script).Preserves P E) : (callTargets run t).Preserves P E := by
  have htell : (do
      if let some client := (← residents).clients.get? t.client then
        emit (.limit client.name)
        run client.onLimit : Act S PUnit).Preserves P E := by
    intro h hh
    rw [ends_bind, ends_residents]
    cases hc : h.state.clients.get? t.client with
    | none => exact hh
    | some client => exact hrun _ _ (hlimit h client hh hc)
  refine hholding _ fun h hh => ?_
  rw [ends_bind, ends_residents]
  cases hc : h.state.contexts.get? t.context with
  | none => exact htell h hh
  | some context => exact ((hrun _).bind fun _ => htell) _ (hwait h context hh hc)

theorem preserves_limitNow {number : Nat} (hcall : ∀ t, (callTargets run t).Preserves P E)
    (hstop : (stopLimiter number : Act S Unit).Preserves P E) :
    (limitNow run number).Preserves P E := fun h hh =>
  ends_limitNow number (fun _ => hh) (fun _ _ _ _ => hstop h hh) fun _ t _ _ _ => hcall t h hh

theorem preserves_runCheck {number : Nat} (hlimit : (limitNow run number).Preserves P E)
    (hpost : ∀ delay, (postCheck number delay).Preserves P E) :
    (runCheck run number).Preserves P E := by
  refine hlimit.bind fun reached => ?_
  split
  · refine preserves_residents.bind fun r => ?_
    split
    · exact hpost _
    · exact .pure _
  · exact .pure _

theorem preserves_animate (hE : ∀ h, P h → E h)
    {number : Nat} (hbars : ∀ h bar opacity, P h → h.state.scrollbars.get? number = some bar →
      P { h with state := { h.state with
        scrollbars := h.state.scrollbars.update number fun _ => { bar with opacity } } })
    (time : Nanos) : (animate number time : Act S _).Preserves P E := by
  intro h hh
  unfold animate Scrollbar.animate
  rw [ends_bind, ends_residents]
  cases hbar : h.state.scrollbars.get? number with
  | none => exact hh
  | some bar =>
    simp only [ends_bind, ends_ofExcept]
    cases bar.opacityAt time with
    | error f => exact hE h hh
    | ok opacity => exact hbars h bar opacity hh hbar

/-- A frame of a fade. -/
theorem preserves_runFrame {fade : Fade S} (hrun : ∀ script, (run script).Preserves P E)
    (hanimate : ∀ time, (animate fade.scrollbar time).Preserves P E)
    (hfade : ∀ opacity time, (emit (.fade fade.name opacity time)).Preserves P E)
    (hpost : (postFrame fade fade.interval).Preserves P E) : (runFrame run fade).Preserves P E := by
  refine preserves_now.bind fun time => (hanimate time).bind fun animated => ?_
  cases animated with
  | none => exact .pure _
  | some shown =>
    obtain ⟨more, bar⟩ := shown
    refine (hfade _ _).bind fun _ => (hrun fade.onFrame).bind fun _ => ?_
    split
    · exact hpost.map _
    · exact .pure _

end Calling

/-! ## Tasks -/

/-- What is behind a gate runs if the gate is open, and is dropped if not. -/
theorem ends_runTask_proxied {Q : Unit → Host S → Prop} {E : Halt → Host S → Prop} (proxy : Nat)
    (task : Task S) :
    (runTask run (.proxied proxy task)).Ends h Q E
      ↔ if (h.state.proxies.get? proxy).map Proxy.shutDown = some false
        then (runTask run task).Ends h Q E
        else Q () { h with state := { h.state with
          proxies := h.state.proxies.update proxy Proxy.drop } } := by
  rw [runTask, ends_bind, ends_residents]
  cases (h.state.proxies.get? proxy).map Proxy.shutDown with
  | none => exact Iff.rfl
  | some shut => cases shut <;> exact Iff.rfl

/-- A good script that is behind no gate runs. -/
theorem CallStable.scripted (hP : CallStable run Good P) (label : String) {script : S}
    (hgood : Good script) : (runTask run (.scripted label script)).Keeps P := by
  rw [runTask]
  exact keeps_now.bind fun now => (hP.ran label now).bind fun _ => hP.run hgood

/-- A good script behind a gate runs or is dropped. -/
theorem CallStable.proxied (hP : CallStable run Good P) (proxy : Nat) (label : String) {script : S}
    (hgood : Good script) : (runTask run (.proxied proxy (.scripted label script))).Keeps P := by
  intro h hh
  rw [ends_runTask_proxied]
  split
  · exact hP.scripted label hgood h hh
  · exact hP.drop proxy h hh

/-! ## Limiters that have begun, or have stopped -/

section Begun

variable {number : Nat} {l : Limiter}

/-- To start a limiter once more changes nothing. -/
theorem startLimiter_of_begun (hl : h.state.limiters.get? number = some l)
    (hbegun : l.phase ≠ .idle) : (startLimiter number).on h = (.ok (), h) := by
  rw [on_eq_ok_iff]
  unfold startLimiter
  rw [ends_bind, ends_residents, hl, Option.bind_some, Limiter.start?, if_neg hbegun]
  exact ⟨rfl, rfl⟩

/-- **An idle limiter is started**, and its check is posted if the runner takes it. -/
theorem startLimiter_of_idle (hl : h.state.limiters.get? number = some l) (hidle : l.phase = .idle)
    (hformed : h.queue.now ≤ longestSpan) :
    (startLimiter number).on h = (.ok (),
      { state := { h.state with
          limiters := h.state.limiters.update number fun _ => { l with phase := .active } }
        queue := if h.queue.accepting then h.queue.accept (.proxied l.proxy (.check number)) 0
          else h.queue }) := by
  have hself : (h.state.limiters.update number fun _ => { l with phase := .active }).get? number
      = some { l with phase := .active } := Roster.get?_update_of_some hl _
  rw [on_eq_ok_iff]
  unfold startLimiter
  rw [ends_bind, ends_residents, hl, Option.bind_some, Limiter.start?, if_pos hidle]
  dsimp only
  rw [ends_bind, ends_change]
  unfold postCheck
  rw [ends_bind, ends_residents]
  simp only [hself]
  refine (ends_map ..).2 ?_
  unfold postVia
  cases haccepts : h.queue.accepting with
  | true => exact (ends_post_formed (by exact haccepts) (by exact hformed)).2 ⟨trivial, rfl⟩
  | false => exact (ends_post_refusing (by exact haccepts)).2 ⟨trivial, rfl⟩

/-- A limiter that is not active does not throttle. -/
theorem limitNow_of_ne_active (hl : h.state.limiters.get? number = some l)
    (hphase : l.phase ≠ .active) (run : S → Act S Unit) :
    (limitNow run number).on h = (.ok false, h) := by
  rw [on_eq_ok_iff]
  unfold limitNow
  simp only [ends_bind, ends_residents, hl, Limiter.check_of_ne_active hphase, ends_pure, and_self]

/-- **An active limiter stops** when it finds one of its targets gone. -/
theorem limitNow_of_orphaned (hl : h.state.limiters.get? number = some l)
    (hactive : l.phase = .active) (hgone : ∀ t, l.targets = some t → areAlive h.state t = false)
    (run : S → Act S Unit) :
    (limitNow run number).on h = (.ok false, { h with state := { h.state with
      limiters := h.state.limiters.update number Limiter.stop } }) := by
  have horphaned : l.check (areAlive h.state) = .orphaned := by
    unfold Limiter.check
    rw [if_pos hactive]
    cases ht : l.targets with
    | none => rfl
    | some t => exact if_neg (by rw [hgone t ht]; exact Bool.false_ne_true)
  rw [on_eq_ok_iff]
  unfold limitNow stopLimiter
  simp only [ends_bind, ends_residents, hl, horphaned, ends_change, ends_pure, and_self]

/-- A check that does not throttle posts none. -/
theorem runCheck_of_limitNow {h' : Host S} {run : S → Act S Unit}
    (hlimit : (limitNow run number).on h = (.ok false, h')) :
    (runCheck run number).on h = (.ok (), h') := by
  rw [on_eq_ok_iff] at hlimit ⊢
  unfold runCheck
  rw [ends_bind]
  refine hlimit.imp (fun reached h' hh' => ?_) fun _ _ => id
  obtain ⟨rfl, rfl⟩ := hh'
  exact ⟨rfl, rfl⟩

/-- A limiter that has stopped is checked in vain. -/
theorem runCheck_of_stopped (hl : h.state.limiters.get? number = some l)
    (hstopped : l.phase = .stopped) (run : S → Act S Unit) :
    (runCheck run number).on h = (.ok (), h) :=
  runCheck_of_limitNow (limitNow_of_ne_active hl (by rw [hstopped]; exact nofun) run)

/-- **A check of a limiter that has stopped calls nobody** when it has its turn: at most a gate
counts it. -/
theorem runTask_of_stopped {task : Task S} (hchecks : task.checks number = true)
    (hl : h.state.limiters.get? number = some l) (hstopped : l.phase = .stopped)
    (run : S → Act S Unit) :
    ∃ proxies,
      (runTask run task).on h = (.ok (), { h with state := { h.state with proxies } }) := by
  induction task with
  | check other =>
    obtain rfl := of_decide_eq_true hchecks
    exact ⟨h.state.proxies, runCheck_of_stopped hl hstopped run⟩
  | guarded handle task ih =>
    obtain ⟨proxies, hon⟩ := ih hchecks
    cases hcanceled : h.state.handles.isCanceled handle with
    | true =>
      refine ⟨h.state.proxies, ?_⟩
      rw [on_eq_ok_iff, runTask, ends_bind, ends_residents, hcanceled]
      exact ⟨rfl, rfl⟩
    | false =>
      refine ⟨proxies, ?_⟩
      rw [on_eq_ok_iff, runTask, ends_bind, ends_residents, hcanceled]
      exact on_eq_ok_iff.1 hon
  | proxied proxy task ih =>
    by_cases hopen : (h.state.proxies.get? proxy).map Proxy.shutDown = some false
    · obtain ⟨proxies, hon⟩ := ih hchecks
      refine ⟨proxies, ?_⟩
      rw [on_eq_ok_iff, ends_runTask_proxied, if_pos hopen, ← on_eq_ok_iff]
      exact hon
    · refine ⟨h.state.proxies.update proxy Proxy.drop, ?_⟩
      rw [on_eq_ok_iff, ends_runTask_proxied, if_neg hopen]
      exact ⟨rfl, rfl⟩
  | _ => cases hchecks

end Begun

end Host

end Compositor
