import Compositor.Proofs.Host.Appointments

/-!
# Minding appointments

Whatever limiters and registries do, appointments are observed afterwards as they were before, if
what is called back observes them. A limiter whose appointment stands is active and finds both its
targets, so its check makes the context wait before anything else happens.
-/

namespace Compositor.Host

open Compositor.Action

variable {S : Type} {Good : S → Prop} {Made : Appointment → Prop} {run : S → Act S Unit}
  {h : Host S}

/-! ## Posting, starting and shutting gates -/

/-- A task may be posted that is no check. -/
theorem keeps_post_minding {task : Task S} (htask : ∀ limiters, IsThrottling Good limiters task)
    (delay : Nanos) : (EventLoop.post task delay : Act S Bool).Keeps (Minding Good none Made) :=
  fun _ hK => ends_post_accepting hK.1.accepting (hK.accept (htask _) delay)

/-- **Starting** a limiter that somebody has a name for, or one that a registry keeps. -/
theorem keeps_startLimiter_minding (number : Nat) :
    (startLimiter number).Keeps (Minding Good none Made : Host S → Prop) :=
  fun _ hK => ends_startLimiter hK.1.accepting number (fun _ => hK) fun _ hl hidle =>
    hK.start hl hidle

/-- Shutting a gate. -/
theorem keeps_shutdownProxy_minding (proxy : Nat) :
    (shutdownProxy proxy).Keeps (Minding Good none Made : Host S → Prop) :=
  fun _ hK => ends_shutdownProxy proxy (fun _ => hK) fun _ _ => hK.updateProxy proxy nofun

/-! ## Registries -/

theorem keeps_registryStart_minding (name : String) (context : Nat) :
    (registryStart name context).Keeps (Minding Good none Made : Host S → Prop) :=
  fun _ hK => ends_registryStart hK.1.accepting hK.2.1 name context (fun _ => hK)
    fun _ _ hr htarget => hK.take hr htarget

/-- **What a registry stops it does not keep any more.** -/
theorem keeps_registryStop_minding (name : String) (id : ContextId) :
    (registryStop name id).Keeps (Minding Good none Made : Host S → Prop) := by
  intro h hK
  unfold registryStop
  rw [ends_bind, ends_residents]
  cases hr : h.state.registries.find? name with
  | none => exact hK
  | some r =>
    dsimp only
    cases hn : r.find? id with
    | none => exact hK
    | some number =>
      rw [ends_bind, ends_change]
      have herased : Minding Good none Made { h with state := { h.state with
          registries := h.state.registries.insert name (r.erase id) } } :=
        hK.insertRegistry name _ fun hn => ⟨r, hr, Table.find?_of_erase hn, rfl⟩
      refine herased.stop fun a _ hnumber hS => ?_
      -- no other number has the limiter, so the appointment does not stand any more
      obtain ⟨hkept, hother⟩ := keptBy_erase hr hS.kept
      rw [hnumber] at hkept
      exact hother (hK.2.1.own hkept (keptBy_eq_some.2 ⟨r, hr, hn⟩))

theorem keeps_registryStopAll_minding (name : String) :
    (registryStopAll name).Keeps (Minding Good none Made : Host S → Prop) :=
  preserves_registryStopAll (keeps_registryStop_minding name)

theorem keeps_dropRegistry_minding (name : String) :
    (dropRegistry name).Keeps (Minding Good none Made : Host S → Prop) :=
  preserves_dropRegistry (keeps_registryStop_minding name) fun _ hK => hK.shrink
    fun hr hn => ⟨_, Table.find?_of_erase hr, hn, rfl⟩

/-! ## Calls -/

/-- Appointments are observed while something is called, if what is called observes them. -/
theorem callStable_minding
    (hrun : ∀ script, Good script → (run script).Keeps (Minding Good none Made)) :
    CallStable run Good (Minding Good none Made) where
  run := hrun _
  onWait hK hc := hK.1.onWait (List.mem_of_getElem? hc)
  onLimit hK hc := hK.1.onLimit (List.mem_of_getElem? hc)
  inUse h inUse hK := hK.beside h.state.onThread inUse h.state.groupIds h.state.groupHandles
    h.state.snapshots
  ran _ _ _ hK := hK.emit _
  wait _ _ hK := hK.emit _
  drop proxy _ hK := hK.updateProxy proxy fun _ => id

/-- **A limiter that is not what its appointment says** stands for none. -/
theorem Appointment.IsObserved.eq_of_stands {hand : Option Nat} {a : Appointment}
    (hO : a.IsObserved hand h) (hS : a.Stands h.state) {l : Limiter}
    (hl : h.state.limiters.get? a.number = some l) : l = a.limiter :=
  Option.some.inj (hl.symm.trans (hO.limiter hS))

section Checks

variable (hrun : ∀ script, Good script → (run script).Keeps (Minding Good none Made))

include hrun

/-- **Throttling at once.** A limiter that finds a target gone has no appointment. -/
theorem keeps_limitNow_minding (number : Nat) :
    (limitNow run number).Keeps (Minding Good none Made) := by
  intro h hK
  have hstable := callStable_minding hrun
  refine ends_limitNow number (fun _ => hK) (fun l hl _ horphaned => hK.stop fun a ha heq hS => ?_)
    fun l t hl _ _ => ends_callTargets hstable hstable t (fun _ c hK' _ => hK'.emit (.limit c.name))
      (fun _ hK' _ => hK') hK
  subst heq
  have hgone := horphaned a.targets ((hK.2.2 a ha).eq_of_stands hS hl ▸ a.targets_eq)
  cases hS.areAlive.symm.trans hgone

/-- **The check in hand.** A limiter whose appointment stands makes the context wait; of any other
one there is nothing to say. -/
theorem ends_limitNow_minding {number : Nat} (hK : Minding Good (some number) Made h) :
    (limitNow run number).Ends h (fun _ => Minding Good none Made) fun _ _ => True := by
  have hstable := callStable_minding hrun
  refine ends_limitNow number (fun hinactive => ?_) (fun l hl _ horphaned => ?_)
    fun l t hl _ ht => ?_
  · refine hK.letGo fun a ha heq hS => ?_
    subst heq
    exact absurd a.active (hinactive _ ((hK.2.2 a ha).limiter hS))
  · have hdead (a : Appointment) (ha : Made a) (heq : a.number = number) : ¬ a.Stands h.state := by
      intro hS
      subst heq
      have hgone := horphaned a.targets ((hK.2.2 a ha).eq_of_stands hS hl ▸ a.targets_eq)
      cases hS.areAlive.symm.trans hgone
    exact (hK.stop hdead).letGo fun a ha heq hS => absurd { hS with } (hdead a ha heq)
  · -- if an appointment stands then these are its targets
    have htargets (a : Appointment) (ha : Made a) (heq : a.number = number)
        (hS : a.Stands h.state) : t = a.targets := by
      subst heq
      rw [(hK.2.2 a ha).eq_of_stands hS hl, a.targets_eq] at ht
      exact (Option.some.inj ht).symm
    have hused := hK.beside h.state.onThread
      ([.context t.context, .client t.client] ++ h.state.inUse) h.state.groupIds
      h.state.groupHandles h.state.snapshots
    refine ends_callTargets_from hstable hstable t (fun c hc => ?_) (fun hgone => ?_)
      (fun _ c hK' _ => hK'.emit (.limit c.name)) fun _ hK' _ => hK'
    · refine (hused.emit (.wait c.name)).letGo fun a ha heq hS => ?_
      have hname := (hK.2.2 a ha).made.context
      rw [← htargets a ha heq { hS with }, hc, Option.map_some] at hname
      have hwaits : (Event.wait c.name : Event S).isWaitOf a.context = true :=
        beq_iff_eq.2 (Option.some.inj hname)
      refine Nat.lt_of_le_of_lt (hK.2.2 a ha).since ?_
      unfold waited
      rw [List.countP_cons_of_pos hwaits]
      exact Nat.lt_succ_self _
    · refine hused.letGo fun a ha heq hS => ?_
      have hname := (hK.2.2 a ha).made.context
      rw [← htargets a ha heq { hS with }, hgone] at hname
      cases hname

/-- **A check** posts the next one if it reached its targets. -/
theorem ends_runCheck_minding {number : Nat} (hK : Minding Good (some number) Made h) :
    (runCheck run number).Ends h (fun _ => Minding Good none Made) fun _ _ => True :=
  ends_runCheck (P := Minding Good none Made) number
    ((ends_limitNow_minding hrun hK).imp (fun reached _ hK' => by cases reached <;> exact hK')
      fun _ _ _ => trivial)
    (fun _ hK => hK.1.accepting) (fun _ hK _ => hK)
    fun _ l hK hl => hK.accept (.check (by rw [hl]; rfl)) l.interval

/-! ## Pumps -/

/-- **A task that is taken out of the queue** is run. -/
theorem ends_runTask_minding {task : Task S} {queue : TaskQueue (Task S)}
    (hK : Minding Good none Made h) (hpop : h.queue.popNext = some (task, queue)) :
    (runTask run task).Ends { h with queue } (fun _ => Minding Good none Made)
      fun _ _ => True := by
  obtain ⟨q, rest, hpending, rfl, rfl⟩ := TaskQueue.popNext_eq_some.1 hpop
  have hplain := hK.1.plain (hpending ▸ List.mem_cons_self ..)
  have htaken {hand : Option Nat} (hhand : ∀ n, q.task.checks n = true → hand = some n) :=
    hK.pop hpending hhand
  have hstable := callStable_minding hrun
  generalize q.task = task at hplain htaken ⊢
  cases hplain with
  | scripted hgood => exact hstable.scripted _ hgood _ (htaken nofun)
  | proxied hgood => exact hstable.proxied _ _ hgood _ (htaken nofun)
  | @check number proxy hproxy =>
    have hK' : Minding Good (some number) Made { h with queue := h.queue.without q rest } :=
      htaken fun n hchecks => congrArg some (beq_iff_eq.1 hchecks)
    rw [ends_runTask_proxied]
    split
    · rw [runTask]
      exact ends_runCheck_minding hrun hK'
    · next hshut =>
      -- the gate is shut, so an appointment with the limiter does not stand
      refine hstable.drop proxy _ (hK'.letGo fun a ha heq hS => absurd ?_ hshut)
      subst heq
      have hlimiter := (hK'.2.2 a ha).limiter hS
      rw [hlimiter] at hproxy
      cases hproxy
      exact hS.gate

/-- **Pumping** observes appointments. -/
theorem keeps_runUntilIdle_minding (fuel : Nat) :
    (EventLoop.runUntilIdle (runTask run) fuel).Keeps (Minding Good none Made) :=
  EventLoop.keeps_runUntilIdle (fun _ _ _ => ends_runTask_minding hrun) fuel

/-- **Advancing** leaves nothing behind that is due. -/
theorem ends_advance_minding (fuel : Nat) (span : Nanos) (hK : Minding Good none Made h) :
    (EventLoop.advance (runTask run) fuel span).Ends h
      (fun _ h' => Minding Good none Made h' ∧ ∀ q ∈ h'.queue.pending, h'.queue.now < q.due)
      fun _ _ => True :=
  EventLoop.ends_advance (fun _ _ _ => ends_runTask_minding hrun) (fun _ _ hK' hnone =>
    ⟨hK'.moved hnone, fun _ hq => hK'.1.inTime.lt_due_of_popDue_eq_none hnone hq⟩) fuel span hK

theorem keeps_runNext_minding :
    (EventLoop.runNext (runTask run)).Keeps (Minding Good none Made) :=
  EventLoop.keeps_runNext fun _ _ _ => ends_runTask_minding hrun

end Checks

/-! ## From the start on -/

/-- **A registry that a context can be given to**: it is there and is not suspended, its gate is
open, its client is there, and no other context of the same number has a name. -/
structure Receptive (h : Host S) (name : String) (r : LimiterRegistry) (context : Nat)
    (target : RateContext S) : Prop where
  registry : h.state.registries.find? name = some r
  ready : r.suspended = false
  gate : (h.state.proxies.get? r.proxy).map Proxy.shutDown = some false
  client : (h.state.clients.get? r.client).isSome = true
  found : h.state.contexts.get? context = some target
  alone {n : Nat} {c : RateContext S} (hnamed : h.state.contexts.isNamed n = true)
    (hc : h.state.contexts.get? n = some c) (hid : c.id = target.id) : n = context

/-- **A context that the registry can throttle**: a limiter that is kept under its number already
has a context that has its name, and is to check within an interval. -/
structure Throttleable (h : Host S) (name : String) (r : LimiterRegistry) (context : Nat)
    (target : RateContext S) : Prop extends Receptive h name r context target where
  known {n : Nat} {l : Limiter} {t : LimiterTargets} (hn : r.find? target.id = some n)
    (hl : h.state.limiters.get? n = some l) (ht : l.targets = some t) :
    h.state.contexts.isNamed t.context = true
  prompt {n : Nat} {q : Pending (Task S)} (hn : r.find? target.id = some n)
    (hq : q ∈ h.queue.pending) (hchecks : q.task.checks n = true) :
    q.due ≤ h.queue.now + r.interval

/-- The appointment that comes of starting a limiter for a context. -/
def appointment (h : Host S) (name : String) (r : LimiterRegistry) (context : Nat)
    (target : RateContext S) (number : Nat) : Appointment where
  registry := name
  id := target.id
  number
  limiter := r.startedLimiter target.id context
  targets := { context, client := r.client }
  context := target.name
  deadline := h.queue.now + r.interval
  waited := h.waited target.name
  active := rfl
  targets_eq := rfl

/-- **The appointment is made**, and it is observed from then on. The limiter that does it is a new
one, or one that is active for this context already; then its check is on its way. -/
theorem ends_registryStart_made {Any : S → Prop} {name : String} {r : LimiterRegistry}
    {context : Nat} {target : RateContext S} (hT : Throttleable h name r context target)
    (hC : Chaining Any [] h) (hK : Minding Good none (fun _ => False) h) :
    (registryStart name context : Act S Unit).Ends h
      (fun _ h' => (h'.queue.now = h.queue.now ∧ h'.state.events = h.state.events) ∧
        ∃ number, keptBy h'.state.registries name target.id = some number ∧
          Minding Good none (· = appointment h name r context target number) h')
      fun _ _ => True := by
  obtain ⟨p, hp, -⟩ := Option.map_eq_some_iff.1 hT.gate
  obtain ⟨c, hc⟩ := Option.isSome_iff_exists.1 hT.client
  have hgate : r.proxy < h.state.proxies.members.length := (List.getElem?_eq_some_iff.1 hp).1
  have hclient : r.client < h.state.clients.members.length := (List.getElem?_eq_some_iff.1 hc).1
  have hname : (h.state.contexts.get? context).map RateContext.name = some target.name := by
    rw [hT.found, Option.map_some]
  refine ends_registryStart hK.1.accepting hK.2.1 name context (fun hgoing => ?_)
    fun r' target' hr htarget => ?_
  · obtain ⟨number, context', hn, hid, hl⟩ := hgoing r target hT.registry hT.found hT.ready
    -- the context of the limiter has a name, so it is the one of its number that has
    obtain ⟨c', hc', hid⟩ := Option.map_eq_some_iff.1 hid
    obtain rfl := hT.alone (hT.known hn hl rfl) hc' hid
    have hrunning : IsRunning h.state.limiters h.state.proxies number := ⟨_, hl, rfl, hT.gate⟩
    obtain ⟨q, hq, hchecks⟩ := List.countP_pos_iff.1
      (Nat.lt_of_lt_of_eq Nat.one_pos (hC.2.2.running hrunning).symm)
    refine ⟨⟨rfl, rfl⟩, number, keptBy_eq_some.2 ⟨r, hT.registry, hn⟩, hK.1, hK.2.1, ?_⟩
    rintro a rfl
    exact ⟨⟨(List.getElem?_eq_some_iff.1 hl).1, hgate, hname, hclient⟩, Nat.le_refl _,
      fun _ => hl, fun _ => .inr (.inr ⟨q, hq, hchecks, hT.prompt hn hq hchecks⟩)⟩
  · obtain rfl := Option.some.inj (hT.registry.symm.trans hr)
    obtain rfl := Option.some.inj (hT.found.symm.trans htarget)
    have hgains := Roster.gains_add h.state.limiters (r.startedLimiter target.id context)
    obtain ⟨hR, hG, -⟩ := hK.take hr htarget
    refine ⟨⟨rfl, rfl⟩, h.state.limiters.members.length, ?_, hR, hG, ?_⟩
    · rw [keptBy_insert, if_pos rfl]
      exact Table.find?_insert_self ..
    · rintro a rfl
      refine ⟨⟨?_, hgate, hname, hclient⟩, Nat.le_refl _, fun _ => Roster.get?_add .., fun _ =>
        .inr (.inr ⟨_, TaskQueue.mem_pending_accept.2 (.inl rfl), ?_, Nat.le_add_right ..⟩)⟩
      · rw [hgains, List.length_append]
        exact Nat.lt_succ_self _
      · exact beq_self_eq_true h.state.limiters.members.length

/-- **An appointment that stands is kept**: once nothing waits that is due by its deadline, the
context has waited, and the limiter is active. -/
theorem Minding.waited_lt {a : Appointment} (hK : Minding Good none (· = a) h)
    (hS : a.Stands h.state) (hlater : ∀ q ∈ h.queue.pending, a.deadline < q.due) :
    a.waited < h.waited a.context ∧ limiterIsActive h.state a.number = true := by
  have hO := hK.2.2 a rfl
  refine ⟨?_, limiterIsActive_iff.2 ⟨a.limiter, hO.limiter hS, a.active, hS.gate⟩⟩
  rcases hO.waits hS with hnone | hmore | ⟨q, hq, -, hdue⟩
  · cases hnone
  · exact hmore
  · exact absurd hdue (Nat.not_le.2 (hlater q hq))

end Compositor.Host
