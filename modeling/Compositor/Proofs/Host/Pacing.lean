import Compositor.Proofs.Host.Cadence

/-!
# Keeping pace

Whatever limiters do keeps the pace of the one that is watched, if what they call back does: a
call of its own targets opens a call, and its check closes it by posting the next one. The clock
is left to the owner of the runner. What is called back may run what is due, but if it moved
the clock while the check is in hand, the next one would be posted too late.
-/

namespace Compositor.Host

open Compositor.Action

variable {S : Type} {Good : S → Prop} {w : Watch S} {late now : Nanos} {inHand : Bool}
  {calls : Nat} {run : S → Act S Unit} {h : Host S}

/-! ## What limiters do -/

theorem keeps_stopLimiter_pacing (number : Nat) :
    (stopLimiter number).Keeps (Pacing Good w late inHand calls now : Host S → Prop) :=
  fun _ hK => hK.stop number

/-- **Starting** some limiter, which is not the one if it is the first start. -/
theorem keeps_startLimiter_pacing (number : Nat) :
    (startLimiter number).Keeps (Pacing Good w late inHand calls now : Host S → Prop) := by
  intro h hK
  refine ends_startLimiter hK.2.1.accepting number (fun _ => hK) fun l hl hidle => ?_
  obtain ⟨hnow, hR, hW, hT⟩ := hK
  have hne := hW.ne_of_idle hl hidle
  have hno : (Task.proxied l.proxy (.check number) : Task S).checks w.number = false :=
    beq_eq_false_iff_ne.2 (Ne.symm hne)
  have hcheck : IsThrottling Good
      (h.state.limiters.update number fun _ => { l with phase := .active })
      (.proxied l.proxy (.check number)) :=
    .check (congrArg (Option.map Limiter.proxy) (Roster.get?_update_of_some hl _))
  have hR' := hR.updateLimiter number (f := fun _ => { l with phase := .active }) fun l' hl' => by
    rw [Option.some.inj (hl.symm.trans hl')]
  refine ⟨hnow, hR'.accept hcheck 0, (hW.start hl hne).accept hno 0, fun hlive => ?_⟩
  have hlimiter := hlive.limiter
  rw [Roster.get?_update_of_ne _ _ hne] at hlimiter
  exact (hT { hlive with limiter := hlimiter }).imp fun _ hT => hT.accept hno 0

/-- A task may be posted that is no check. -/
theorem keeps_post_pacing {task : Task S} (htask : ∀ limiters, IsThrottling Good limiters task)
    (hno : ∀ n, task.checks n = false) (delay : Nanos) :
    (EventLoop.post task delay : Act S Bool).Keeps (Pacing Good w late inHand calls now) :=
  fun _ hK => ends_post_accepting hK.2.1.accepting (hK.accept (htask _) (hno _) delay)

/-- Shutting a gate. -/
theorem keeps_shutdownProxy_pacing (proxy : Nat) :
    (shutdownProxy proxy).Keeps (Pacing Good w late inHand calls now : Host S → Prop) :=
  fun _ hK => ends_shutdownProxy proxy (fun _ => hK) fun _ _ => hK.updateProxy proxy nofun

/-- The pace survives calls, if what is called keeps it. -/
theorem callStable_pacing
    (hrun : ∀ script, Good script → (run script).Keeps (Pacing Good w late inHand calls now)) :
    CallStable run Good (Pacing Good w late inHand calls now) where
  run := hrun _
  onWait hK hc := hK.2.1.onWait (List.mem_of_getElem? hc)
  onLimit hK hc := hK.2.1.onLimit (List.mem_of_getElem? hc)
  inUse _ _ hK := hK
  ran _ _ _ hK := hK.emit rfl rfl
  wait _ _ hK := hK.emit rfl rfl
  drop proxy _ hK := hK.updateProxy proxy fun _ => id

section Checks

variable (hrun : ∀ now inHand calls script, Good script →
  (run script).Keeps (Pacing Good w late inHand calls now))

include hrun

/-- **The limiter throttles once**: its client is told, and one more call is open. If its targets
were not reached then it is not live. -/
theorem ends_limitNow_own (hK : Pacing Good w late inHand calls now h) :
    (limitNow run w.number).Ends h
      (fun reached h' => Pacing Good w late inHand (calls + 1) now h' ∧
        (reached = false →
          ¬ Live w h'.state.limiters h'.state.proxies h'.state.contexts h'.state.clients))
      fun _ _ => True := by
  refine ends_limitNow w.number (fun hinactive => ?_) (fun l hl _ _ => ?_) fun l t hl _ ht => ?_
  · have hdead : ¬ Live w h.state.limiters h.state.proxies h.state.contexts h.state.clients :=
      fun hlive => hinactive w.limiter hlive.limiter w.active
    exact ⟨hK.of_dead hdead, fun _ => hdead⟩
  · have hdead : ¬ Live w (h.state.limiters.update w.number Limiter.stop) h.state.proxies
        h.state.contexts h.state.clients := fun hlive => hlive.of_stop.1 rfl
    exact ⟨(hK.stop w.number).of_dead hdead, fun _ => hdead⟩
  · obtain rfl := hK.2.2.1.targets_eq hl ht
    have hcallee {h : Host S} (hK : Pacing Good w late inHand calls now h) :
        (h.state.clients.get? w.targets.client).map RateClient.name = some w.client := by
      unfold Roster.get?
      rw [hK.2.2.1.callees]
      exact w.callee
    refine (ends_callTargets (callStable_pacing (hrun now inHand calls))
      (callStable_pacing (hrun now inHand (calls + 1))) w.targets (fun h c hK hc => ?_)
      (fun h hK hnone => ?_) hK).imp (fun _ _ hK' => ⟨hK', nofun⟩) fun _ _ _ => trivial
    · have hname := hcallee hK
      rw [hc] at hname
      rw [Option.some.inj hname]
      exact hK.tell
    · have hname := hcallee hK
      rw [hnone] at hname
      cases hname

/-- **Another limiter throttles once**, and tells its own client. -/
theorem keeps_limitNow_other {number : Nat} (hne : number ≠ w.number) :
    (limitNow run number).Keeps (Pacing Good w late inHand calls now) := by
  intro h hK
  refine ends_limitNow number (fun _ => hK) (fun _ _ _ _ => hK.stop number) fun l t hl _ ht => ?_
  have hstable := callStable_pacing (hrun now inHand calls)
  refine ends_callTargets hstable hstable t (fun h' c hK' hc => hK'.emit ?_ rfl)
    (fun _ hK' _ => hK') hK
  have hc : h.state.clients.get? t.client = some c := by
    unfold Roster.get? at hc ⊢
    rwa [hK.2.2.1.callees, ← hK'.2.2.1.callees]
  exact beq_eq_false_iff_ne.2 (hK.2.2.1.alone hne hl ht hc)

/-- **The check of the limiter**: the client is told, and the next check is posted. -/
theorem ends_runCheck_own (hK : Pacing Good w late true calls now h) :
    (runCheck run w.number).Ends h (fun _ => Pacing Good w late false calls now)
      fun _ _ => True := by
  refine ends_runCheck (P := Pacing Good w late true (calls + 1) now) w.number ?_
    (fun _ hK => hK.2.1.accepting) (fun h hK hnone => ?_) fun h l hK hl => hK.repost hl
  · refine (ends_limitNow_own hrun hK).imp (fun reached h' hlimited => ?_) fun _ _ _ => trivial
    cases reached with
    | true => exact hlimited.1
    | false => exact hlimited.1.letGo (hlimited.2 rfl)
  · rcases hK.2.2.1.started with hl | hl <;> cases hnone.symm.trans hl

/-- A check of another limiter. -/
theorem keeps_runCheck_other {number : Nat} (hne : number ≠ w.number) :
    (runCheck run number).Keeps (Pacing Good w late inHand calls now) := by
  intro h hK
  refine ends_runCheck (P := Pacing Good w late inHand calls now) number
    ((keeps_limitNow_other hrun hne h hK).imp (fun reached _ hK' => by cases reached <;> exact hK')
      fun _ _ _ => trivial)
    (fun _ hK => hK.2.1.accepting) (fun _ hK _ => hK) fun h l hK hl => ?_
  exact hK.accept (.check (by rw [hl]; rfl)) (beq_eq_false_iff_ne.2 hne) l.interval

/-! ## Pumps -/

/-- **A task that is taken out of the queue** keeps the pace when it is run. -/
theorem ends_runTask_pacing (hK : Pacing Good w late inHand calls now h) {q : Pending (Task S)}
    {rest : List (Pending (Task S))} (hpending : h.queue.pending = q :: rest)
    (hdue : inHand = true → q.due ≤ now) :
    (runTask run q.task).Ends { h with queue := h.queue.without q rest }
      (fun _ => Pacing Good w late inHand calls (max now q.due)) fun _ _ => True := by
  have hplain := hK.2.1.plain (hpending ▸ List.mem_cons_self ..)
  have hpop (hno : q.task.checks w.number = false) := hK.pop hpending hno hdue
  have htake (hchecks : q.task.checks w.number = true) := hK.take hpending hchecks
  generalize q.task = task at hplain hpop htake ⊢
  generalize max now q.due = now' at hpop htake ⊢
  have hstable (inHand : Bool) := callStable_pacing (hrun now' inHand calls)
  cases hplain with
  | scripted hgood => exact (hstable inHand).scripted _ hgood _ (hpop rfl)
  | proxied hgood => exact (hstable inHand).proxied _ _ hgood _ (hpop rfl)
  | @check number proxy hproxy =>
    rw [ends_runTask_proxied]
    by_cases hself : number = w.number
    · subst hself
      obtain ⟨rfl, hK'⟩ := htake (beq_self_eq_true _)
      split
      · rw [runTask]
        exact ends_runCheck_own hrun hK'
      · next hshut =>
        refine (hstable false).drop proxy _ (hK'.letGo fun hlive => hshut ?_)
        rw [hlive.limiter] at hproxy
        cases hproxy
        exact hlive.gate
    · have hK' := hpop (beq_eq_false_iff_ne.2 hself)
      split
      · rw [runTask]
        exact keeps_runCheck_other hrun hself _ hK'
      · exact (hstable inHand).drop proxy _ hK'

/-- **Running what is due** keeps the pace, and takes the clock to the deadline at most; while the
check is in hand, the deadline has to be what the clock reads. -/
theorem settles_runDue_pacing {deadline : Nanos} (fuel : Nat)
    (hK : Pacing Good w late inHand calls now h) (hle : now ≤ deadline)
    (hclock : inHand = true → deadline = now) :
    (EventLoop.runDue (runTask run) deadline fuel).Ends h
      (fun _ h' => (∃ now', now ≤ now' ∧ now' ≤ deadline ∧
        Pacing Good w late inHand calls now' h') ∧ h'.queue.popDue deadline = none)
      fun _ _ => True := by
  refine EventLoop.settles_runDue (P := fun h => ∃ now', now ≤ now' ∧ now' ≤ deadline ∧
    Pacing Good w late inHand calls now' h) deadline (fun l task queue => ?_) fuel
    ⟨now, Nat.le_refl _, hle, hK⟩
  rintro ⟨now', hge, hle', hK'⟩ hpop
  obtain ⟨q, rest, hpending, hdue, rfl, rfl⟩ := TaskQueue.popDue_eq_some.1 hpop
  have hdue' (hinHand : inHand = true) : q.due ≤ now' :=
    Nat.le_trans hdue (Nat.le_trans (Nat.le_of_eq (hclock hinHand)) hge)
  exact (ends_runTask_pacing hrun hK' hpending hdue').imp (fun _ h' hK'' => ⟨max now' q.due,
    Nat.le_trans hge (Nat.le_max_left ..), Nat.max_le.2 ⟨hle', hdue⟩, hK''⟩) fun _ _ _ => trivial

/-- Running what is due now does not move the clock. -/
theorem keeps_runUntilIdle_pacing (fuel : Nat) :
    (EventLoop.runUntilIdle (runTask run) fuel).Keeps (Pacing Good w late inHand calls now) := by
  intro h hK
  unfold EventLoop.runUntilIdle
  rw [ends_bind, ends_get, hK.1]
  refine (settles_runDue_pacing hrun fuel hK (Nat.le_refl now) fun _ => rfl).imp
    (fun _ h' hsettled => ?_) fun _ _ _ => trivial
  obtain ⟨⟨now', hge, hle, hK'⟩, -⟩ := hsettled
  exact Nat.le_antisymm hge hle ▸ hK'

/-- **Advancing** takes the clock ahead by a span, and the next check is due later. -/
theorem ends_advance_pacing (fuel : Nat) (span : Nanos)
    (hK : Pacing Good w late false calls now h) :
    (EventLoop.advance (runTask run) fuel span).Ends h
      (fun _ => Pacing Good w (max late (now + span + 1)) false calls (now + span))
      fun _ _ => True := by
  unfold EventLoop.advance
  simp only [ends_bind, ends_get, ends_ofExcept, hK.1]
  cases htarget : Nanos.add now span with
  | error f => trivial
  | ok target =>
    obtain ⟨rfl, -⟩ := Nanos.add_eq_ok.1 htarget
    refine (settles_runDue_pacing hrun fuel hK (Nat.le_add_right ..)
      Bool.false_ne_true.elim).imp (fun _ h' hsettled => ?_) fun _ _ _ => trivial
    obtain ⟨⟨now', -, hle, rfl, hR, hW, hT⟩, hnone⟩ := hsettled
    refine ⟨rfl, hR.moved hnone, { hW with single := hW.single }, fun hlive => ?_⟩
    obtain ⟨checks, hT⟩ := hT hlive
    -- the next check waits, and what waits is due later than the target
    obtain ⟨q, hq, hchecks⟩ := List.countP_pos_iff.1 (Nat.lt_of_lt_of_eq Nat.one_pos hT.chain.symm)
    have hlater := hR.inTime.lt_due_of_popDue_eq_none hnone hq
    rw [hT.due hq hchecks] at hlater
    exact ⟨checks, { hT with
      chain := hT.chain
      inHand := Bool.false_ne_true.elim
      begun := Nat.le_trans hT.begun hle
      late := Nat.max_le.2 ⟨hT.late, hlater⟩
      early := Nat.le_trans hT.early (Nat.add_le_add_right hle _) }⟩

/-- Running the next task may take the clock ahead. -/
theorem ends_runNext_pacing (hK : Pacing Good w late false calls now h) :
    (EventLoop.runNext (runTask run)).Ends h
      (fun _ h' => ∃ now', Pacing Good w late false calls now' h') fun _ _ => True := by
  unfold EventLoop.runNext
  simp only [ends_bind, ends_get]
  cases hpop : h.queue.popNext with
  | none => exact ⟨now, hK⟩
  | some popped =>
    obtain ⟨task, queue⟩ := popped
    obtain ⟨q, rest, hpending, rfl, rfl⟩ := TaskQueue.popNext_eq_some.1 hpop
    simp only [ends_bind, ends_modify]
    exact (ends_runTask_pacing hrun hK hpending Bool.false_ne_true.elim).imp
      (fun _ h' hK' => ⟨_, hK'⟩) fun _ _ _ => trivial

end Checks

/-! ## From the start on -/

/-- **A limiter that can be started and watched**: it is idle and has its targets, no other limiter
tells a client of the same name, and whatever waits or may be called back is good. -/
structure Startable (Good : S → Prop) (h : Host S) (name : String) (number : Nat) (l : Limiter)
    (t : LimiterTargets) (c : RateClient S) : Prop where
  named : h.state.limiters.number? name = some number
  limiter : h.state.limiters.get? number = some l
  idle : l.phase = .idle
  targets : l.targets = some t
  client : h.state.clients.get? t.client = some c
  alone {n : Nat} {l' : Limiter} {t' : LimiterTargets} {c' : RateClient S} (hne : n ≠ number)
    (hl' : h.state.limiters.get? n = some l') (ht' : l'.targets = some t')
    (hc' : h.state.clients.get? t'.client = some c') : c'.name ≠ c.name
  plain {q : Pending (Task S)} (hq : q ∈ h.queue.pending) :
    IsThrottling Good h.state.limiters q.task
  onWait {context : RateContext S} (hcontext : context ∈ h.state.contexts.members) :
    Good context.onWait
  onLimit {client : RateClient S} (hclient : client ∈ h.state.clients.members) :
    Good client.onLimit

/-- The limiter as it is watched from the start on. -/
def Startable.watch {name : String} {number : Nat} {l : Limiter} {t : LimiterTargets}
    {c : RateClient S} (hS : Startable Good h name number l t c) (isCall : S → Bool) :
    Watch S where
  name
  number
  limiter := { l with phase := .active }
  targets := t
  client := c.name
  callees := h.state.clients.members
  active := rfl
  targets_eq := hS.targets
  callee := congrArg (Option.map RateClient.name) hS.client
  isCall
  since := h.queue.now
  told := h.told c.name
  noted := h.noted isCall

/-- **The limiter is started.** Of a limiter that was idle no check was on its way, so its first
one is the only one, and it is due at once. -/
theorem Startable.ends_startLimiter {Any : S → Prop} {name : String} {number : Nat} {l : Limiter}
    {t : LimiterTargets} {c : RateClient S} (hS : Startable Good h name number l t c)
    (hC : Chaining Any [] h) (isCall : S → Bool) :
    (startLimiter number : Act S Unit).Ends h
      (fun _ => Pacing Good (hS.watch isCall) 0 false 0 h.queue.now) fun _ _ => True := by
  obtain ⟨hR, hG, hC⟩ := hC
  refine Host.ends_startLimiter hR.accepting number
    (fun hstarted => absurd hS.idle (hstarted l hS.limiter)) fun l' hl' _ => ?_
  obtain rfl := Option.some.inj (hS.limiter.symm.trans hl')
  have hself : (h.state.limiters.update number fun _ => { l with phase := .active }).get? number
      = some { l with phase := .active } := Roster.get?_update_of_some hl' _
  have hnone : checksIn h.queue number = 0 := hC.unstarted fun l' hl' =>
    Option.some.inj (hS.limiter.symm.trans hl') ▸ hS.idle
  have hone : checksIn (h.queue.accept (.proxied l.proxy (.check number)) 0) number = 1 := by
    rw [checksIn_accept, hnone, Task.checks_check, if_pos (beq_self_eq_true number)]
  have hR' : Regular Good h.state.limiters h.state.contexts h.state.clients h.queue :=
    ⟨hR.accepting, hR.inTime, hS.plain, hS.onWait, hS.onLimit⟩
  have hR'' := hR'.updateLimiter number (f := fun _ => { l with phase := .active })
    fun l' hl' => by rw [Option.some.inj (hS.limiter.symm.trans hl')]
  refine ⟨rfl, hR''.accept (.check (by rw [hself]; rfl)) 0, ?_, fun _ => ⟨0, ?_⟩⟩
  · exact {
      name := fun other => ⟨fun hother => hG.limiterNames.injective hother hS.named, by
        rintro rfl
        exact hS.named⟩
      started := .inl hself
      callees := rfl
      alone := fun hne hl'' => hS.alone hne ((Roster.get?_update_of_ne _ _ hne).symm.trans hl'')
      single := Nat.le_of_eq hone }
  · exact {
      chain := hone
      due := fun {q} hq hchecks => by
        rcases TaskQueue.mem_pending_accept.1 hq with rfl | hq
        · exact congrArg (h.queue.now + ·) (Nat.zero_mul _).symm
        · exact absurd hchecks (List.countP_eq_zero.1 hnone q hq)
      inHand := nofun
      begun := Nat.le_refl _
      late := Nat.zero_le _
      early := Nat.add_le_add_left (by rw [Nat.zero_mul]; exact Nat.zero_le _) _
      account := rfl }

end Compositor.Host
