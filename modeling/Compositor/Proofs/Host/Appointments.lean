import Compositor.Proofs.Host.Registries

/-!
# What comes of a start

A context for which a registry has started a limiter has an *appointment* with it: by some time
the limiter has made it wait. The appointment *stands* as long as the registry keeps the limiter
under the number, the gate of the limiter is open, and context and client have their names. An
appointment that does not stand any more will not stand again, since numbers are given once.

While it stands, nobody stops the limiter: the registry lets go of what it stops, nobody else
knows the limiter, and the limiter does not find a target gone. So its check is on its way, or
the context has waited. The check may also be in hand, but then the first thing that comes of it
is that the context waits.
-/

namespace Compositor

variable {S : Type}

/-- Whether it is the event that a context of some name is made to wait. -/
def Event.isWaitOf (context : String) : Event S → Bool
  | .wait name => name == context
  | _ => false

namespace Host

open Compositor.Action

/-- How often contexts of a name were made to wait. -/
def waited (context : String) (h : Host S) : Nat :=
  h.state.events.countP (Event.isWaitOf context)

/-- **An appointment**: which limiter, kept by whom and as it is while it is active, makes which
context wait, and by when. -/
structure Appointment where
  registry : String
  id : ContextId
  number : Nat
  limiter : Limiter
  targets : LimiterTargets
  /-- The name of the context. -/
  context : String
  /-- When the check is due at the latest. -/
  deadline : Nanos
  /-- How often contexts of that name had waited when the appointment was made. -/
  waited : Nat
  active : limiter.phase = .active
  targets_eq : limiter.targets = some targets

variable {a : Appointment} {r r' : Residents S}

/-- Whoever the appointment is about is there, with a name or without one. -/
structure Appointment.IsMade (a : Appointment) (r : Residents S) : Prop where
  limiter : a.number < r.limiters.members.length
  gate : a.limiter.proxy < r.proxies.members.length
  context : (r.contexts.get? a.targets.context).map RateContext.name = some a.context
  client : a.targets.client < r.clients.members.length

/-- **The appointment stands**: the registry keeps the limiter, its gate is open, and its targets
have their names. -/
structure Appointment.Stands (a : Appointment) (r : Residents S) : Prop where
  kept : keptBy r.registries a.registry a.id = some a.number
  gate : (r.proxies.get? a.limiter.proxy).map Proxy.shutDown = some false
  context : r.contexts.isNamed a.targets.context = true
  client : r.clients.isNamed a.targets.client = true

/-- **The appointment is observed**: while it stands, the limiter is active, and its check is in
hand or due in time, or the context has waited. -/
structure Appointment.IsObserved (hand : Option Nat) (a : Appointment) (h : Host S) : Prop where
  made : a.IsMade h.state
  since : a.waited ≤ h.waited a.context
  limiter (hstands : a.Stands h.state) : h.state.limiters.get? a.number = some a.limiter
  waits (hstands : a.Stands h.state) : hand = some a.number ∨ a.waited < h.waited a.context ∨
    ∃ q ∈ h.queue.pending, q.task.checks a.number = true ∧ q.due ≤ a.deadline

/-- **Some appointments are observed**, and registries keep what is their own; what waits and what
is called back is in order. -/
def Minding (Good : S → Prop) (hand : Option Nat) (Made : Appointment → Prop) (h : Host S) :
    Prop :=
  Regular Good h.state.limiters h.state.contexts h.state.clients h.queue ∧
    Registered h.state.limiters h.state.contexts h.state.registries ∧
    ∀ a, Made a → a.IsObserved hand h

variable {Good : S → Prop} {hand : Option Nat} {Made : Appointment → Prop} {h h' : Host S}

/-! ## One appointment -/

namespace Appointment

/-- While the appointment stands, its limiter can call both targets. -/
theorem Stands.areAlive (hS : a.Stands r) : areAlive r a.targets = true := by
  unfold Host.areAlive
  rw [hS.context, hS.client]
  rfl

/-- **An appointment is still observed** if it does not stand anew, the limiter is what it was if
it stands, the context has waited no less, and no check of it was lost. -/
theorem IsObserved.mono (hO : a.IsObserved hand h) (hmade : a.IsMade h'.state)
    (hstands : a.Stands h'.state → a.Stands h.state)
    (hlimiter : a.Stands h'.state → h.state.limiters.get? a.number = some a.limiter →
      h'.state.limiters.get? a.number = some a.limiter)
    (hwaited : h.waited a.context ≤ h'.waited a.context)
    (hchecks : ∀ q ∈ h.queue.pending, q.task.checks a.number = true → q ∈ h'.queue.pending) :
    a.IsObserved hand h' where
  made := hmade
  since := Nat.le_trans hO.since hwaited
  limiter hS := hlimiter hS (hO.limiter (hstands hS))
  waits hS := by
    rcases hO.waits (hstands hS) with hhand | hmore | ⟨q, hq, hcheck, hdue⟩
    · exact .inl hhand
    · exact .inr (.inl (Nat.lt_of_lt_of_le hmore hwaited))
    · exact .inr (.inr ⟨q, hchecks q hq hcheck, hcheck, hdue⟩)

/-- The same if neither the queue changes nor what was to be seen. -/
theorem IsObserved.change (hO : a.IsObserved hand h) (hevents : r.events = h.state.events)
    (hmade : a.IsMade r) (hstands : a.Stands r → a.Stands h.state)
    (hlimiter : a.Stands r → h.state.limiters.get? a.number = some a.limiter →
      r.limiters.get? a.number = some a.limiter) : a.IsObserved hand { h with state := r } :=
  hO.mono hmade hstands hlimiter (Nat.le_of_eq (congrArg (List.countP _) hevents.symm))
    fun _ hq _ => hq

end Appointment

/-! ## What happens to the host -/

namespace Minding

/-- No appointment is about what is in use, about the thread, or about the tables that the embedder
keeps for itself. -/
theorem beside (hK : Minding Good hand Made h) (onThread : Bool) (inUse : List InUse)
    (groupIds : Table String GroupId) (groupHandles : Table String GroupHandle)
    (snapshots : Table String (Table StubId StubStat)) :
    Minding Good hand Made { h with state := { h.state with
      onThread, inUse, groupIds, groupHandles, snapshots } } := by
  obtain ⟨hR, hG, hO⟩ := hK
  exact ⟨hR, hG, fun a ha => (hO a ha).change rfl { (hO a ha).made with } (fun hS => { hS with })
    fun _ => id⟩

/-- The observer sees something. -/
theorem emit (hK : Minding Good hand Made h) (e : Event S) :
    Minding Good hand Made { h with state := { h.state with events := e :: h.state.events } } := by
  obtain ⟨hR, hG, hO⟩ := hK
  refine ⟨hR, hG, fun a ha => (hO a ha).mono { (hO a ha).made with } (fun hS => { hS with })
    (fun _ => id) ?_ fun _ hq _ => hq⟩
  exact (List.sublist_cons_self e h.state.events).countP_le

/-- A task is posted. -/
theorem accept (hK : Minding Good hand Made h) {task : Task S}
    (htask : IsThrottling Good h.state.limiters task) (delay : Nanos) :
    Minding Good hand Made { h with queue := h.queue.accept task delay } := by
  obtain ⟨hR, hG, hO⟩ := hK
  exact ⟨hR.accept htask delay, hG, fun a ha => (hO a ha).mono (hO a ha).made id (fun _ => id)
    (Nat.le_refl _) fun _ hq _ => TaskQueue.mem_pending_accept.2 (.inr hq)⟩

/-- **A task is taken out**, and if it is a check it is in hand. -/
theorem pop (hK : Minding Good none Made h) {q : Pending (Task S)} {rest : List (Pending (Task S))}
    (hpending : h.queue.pending = q :: rest)
    (hhand : ∀ n, q.task.checks n = true → hand = some n) :
    Minding Good hand Made { h with queue := h.queue.without q rest } := by
  obtain ⟨hR, hG, hO⟩ := hK
  refine ⟨hR.without hpending, hG, fun a ha => ?_⟩
  obtain ⟨hmade, hsince, hlimiter, hwaits⟩ := hO a ha
  refine ⟨hmade, hsince, hlimiter, fun hS => ?_⟩
  rcases hwaits hS with hnone | hmore | ⟨q', hq', hcheck, hdue⟩
  · cases hnone
  · exact .inr (.inl hmore)
  · rw [hpending] at hq'
    rcases List.mem_cons.1 hq' with rfl | hq'
    · exact .inl (hhand _ hcheck)
    · exact .inr (.inr ⟨q', hq', hcheck, hdue⟩)

/-- The clock is moved to a time by which nothing was due. -/
theorem moved (hK : Minding Good hand Made h) {deadline : Nanos}
    (hnone : h.queue.popDue deadline = none) :
    Minding Good hand Made { h with queue := { h.queue with now := deadline } } :=
  ⟨hK.1.moved hnone, hK.2.1, fun a ha => { hK.2.2 a ha with }⟩

/-- **The check in hand** is done with, once its limiter made the context wait or the appointment
does not stand any more. -/
theorem letGo {number : Nat} (hK : Minding Good (some number) Made h)
    (hdone : ∀ a, Made a → a.number = number → a.Stands h.state →
      a.waited < h.waited a.context) : Minding Good none Made h := by
  obtain ⟨hR, hG, hO⟩ := hK
  refine ⟨hR, hG, fun a ha => { hO a ha with waits := fun hS => ?_ }⟩
  rcases (hO a ha).waits hS with hhand | hwaits
  · exact .inr (.inl (hdone a ha (Option.some.inj hhand).symm hS))
  · exact .inr hwaits

/-! ### Limiters -/

/-- **Limiters change**, but none is lost, and that of an appointment that stands stays what it
is. -/
theorem changeLimiters (hK : Minding Good hand Made h) {limiters : Roster Limiter}
    (hR : Regular Good limiters h.state.contexts h.state.clients h.queue)
    (hG : Registered limiters h.state.contexts h.state.registries)
    (hle : h.state.limiters.members.length ≤ limiters.members.length)
    (hlimiter : ∀ a, Made a → a.Stands h.state →
      h.state.limiters.get? a.number = some a.limiter →
      limiters.get? a.number = some a.limiter) :
    Minding Good hand Made { h with state := { h.state with limiters } } := by
  refine ⟨hR, hG, fun a ha => ?_⟩
  have hM := (hK.2.2 a ha).made
  exact (hK.2.2 a ha).change rfl { hM with limiter := Nat.lt_of_lt_of_le hM.limiter hle }
    (fun hS => { hS with }) fun hS => hlimiter a ha { hS with }

/-- **A limiter is stopped** with which no appointment stands. -/
theorem stop (hK : Minding Good hand Made h) {number : Nat}
    (hfree : ∀ a, Made a → a.number = number → ¬ a.Stands h.state) :
    Minding Good hand Made { h with state := { h.state with
      limiters := h.state.limiters.update number Limiter.stop } } := by
  refine hK.changeLimiters (hK.1.updateLimiter number fun _ _ => rfl) (hK.2.1.stop number)
    (Roster.length_update ..).ge fun a ha hS hl => ?_
  exact (Roster.get?_update_of_ne _ _ fun heq => hfree a ha heq hS).trans hl

/-- **A limiter is started** that was idle. -/
theorem start (hK : Minding Good hand Made h) {number : Nat} {l : Limiter}
    (hl : h.state.limiters.get? number = some l) (hidle : l.phase = .idle) :
    Minding Good hand Made
      { state := { h.state with
          limiters := h.state.limiters.update number fun _ => { l with phase := .active } }
        queue := h.queue.accept (.proxied l.proxy (.check number)) 0 } := by
  have hstarted : Minding Good hand Made { h with state := { h.state with
      limiters := h.state.limiters.update number fun _ => { l with phase := .active } } } := by
    refine hK.changeLimiters (hK.1.updateLimiter number fun l' hl' => ?_) (hK.2.1.start hl hidle _)
      (Roster.length_update ..).ge fun a _ _ hl' => ?_
    · rw [Option.some.inj (hl.symm.trans hl')]
    · have hne : a.number ≠ number := by
        rintro rfl
        obtain rfl := Option.some.inj (hl.symm.trans hl')
        cases hidle.symm.trans a.active
      exact (Roster.get?_update_of_ne _ _ hne).trans hl'
  refine hstarted.accept (.check ?_) 0
  exact congrArg (Option.map Limiter.proxy) (Roster.get?_update_of_some hl _)

/-- Somebody makes a limiter of his own. -/
theorem enrollLimiter (hK : Minding Good hand Made h) (name : String) (l : Limiter) :
    Minding Good hand Made { h with state := { h.state with
      limiters := (h.state.limiters.enroll name l).2 } } := by
  have hgains := Roster.gains_enroll h.state.limiters name l
  exact hK.changeLimiters
    (hK.1.changeLimiters fun _ l' hl' => ⟨l', hgains.get?_of_some hl', rfl⟩)
    (hK.2.1.enrollLimiter name l) hgains.length_le fun _ _ _ => hgains.get?_of_some

theorem forgetLimiter (hK : Minding Good hand Made h) (name : String) :
    Minding Good hand Made { h with state := { h.state with
      limiters := h.state.limiters.forget name } } := by
  have hget (n : Nat) : (h.state.limiters.forget name).get? n = h.state.limiters.get? n :=
    Roster.get?_forget ..
  exact hK.changeLimiters (hK.1.changeLimiters fun n l hl => ⟨l, (hget n).trans hl, rfl⟩)
    (hK.2.1.forgetLimiter name) (Roster.length_forget ..).ge fun _ _ _ => (hget _).trans

/-! ### Gates -/

/-- **Gates change**, but none is lost, and no gate of an appointment is open that was not open
before. -/
theorem changeProxies (hK : Minding Good hand Made h) {proxies : Roster Proxy}
    (hle : h.state.proxies.members.length ≤ proxies.members.length)
    (hopen : ∀ n < h.state.proxies.members.length,
      (proxies.get? n).map Proxy.shutDown = some false →
      (h.state.proxies.get? n).map Proxy.shutDown = some false) :
    Minding Good hand Made { h with state := { h.state with proxies } } := by
  obtain ⟨hR, hG, hO⟩ := hK
  refine ⟨hR, hG, fun a ha => ?_⟩
  have hM := (hO a ha).made
  exact (hO a ha).change rfl { hM with gate := Nat.lt_of_lt_of_le hM.gate hle }
    (fun hS => { hS with gate := hopen _ hM.gate hS.gate }) fun _ => id

/-- A gate changes that was open before if it is open now. -/
theorem updateProxy (hK : Minding Good hand Made h) (proxy : Nat) {f : Proxy → Proxy}
    (hf : ∀ p, (f p).shutDown = false → p.shutDown = false) :
    Minding Good hand Made { h with state := { h.state with
      proxies := h.state.proxies.update proxy f } } :=
  hK.changeProxies (Roster.length_update ..).ge fun _ _ => open_of_updateProxy hf

theorem enrollProxy (hK : Minding Good hand Made h) (name : String) (p : Proxy) :
    Minding Good hand Made { h with state := { h.state with
      proxies := (h.state.proxies.enroll name p).2 } } := by
  have hgains := Roster.gains_enroll h.state.proxies name p
  refine hK.changeProxies hgains.length_le fun n hlt hopen => ?_
  obtain ⟨p', hp', hopen⟩ := Option.map_eq_some_iff.1 hopen
  rcases hgains.get?_eq_some hp' with hknown | ⟨hnone, -⟩
  · rw [hknown, Option.map_some, hopen]
  · exact absurd hlt (Nat.not_lt.2 (List.getElem?_eq_none_iff.1 hnone))

theorem forgetProxy (hK : Minding Good hand Made h) (name : String) :
    Minding Good hand Made { h with state := { h.state with
      proxies := h.state.proxies.forget name } } := by
  refine hK.changeProxies (Roster.length_forget ..).ge fun n _ hopen => ?_
  rwa [Roster.get?_forget] at hopen

/-! ### Contexts and clients -/

/-- **Contexts change**, but none is lost, and none that was there gets a name that had none. -/
theorem changeContexts (hK : Minding Good hand Made h) {contexts : Roster (RateContext S)}
    (hR : Regular Good h.state.limiters contexts h.state.clients h.queue)
    (hold : ∀ n c, h.state.contexts.get? n = some c → contexts.get? n = some c)
    (hnamed : ∀ n < h.state.contexts.members.length, contexts.isNamed n = true →
      h.state.contexts.isNamed n = true) :
    Minding Good hand Made { h with state := { h.state with contexts } } := by
  refine ⟨hR, hK.2.1.changeContexts hold, fun a ha => ?_⟩
  have hM := (hK.2.2 a ha).made
  obtain ⟨c, hc, hname⟩ := Option.map_eq_some_iff.1 hM.context
  have hlt := (List.getElem?_eq_some_iff.1 hc).1
  refine (hK.2.2 a ha).change rfl { hM with context := ?_ }
    (fun hS => { hS with context := hnamed _ hlt hS.context }) fun _ => id
  rw [hold _ _ hc, Option.map_some, hname]

theorem enrollContext (hK : Minding Good hand Made h) (name : String) {c : RateContext S}
    (hc : Good c.onWait) :
    Minding Good hand Made { h with state := { h.state with
      contexts := (h.state.contexts.enroll name c).2 } } := by
  have hgains := Roster.gains_enroll h.state.contexts name c
  refine hK.changeContexts { hK.1 with onWait := fun hother => ?_ }
    (fun _ _ => hgains.get?_of_some) fun n => Roster.isNamed_of_enroll
  rcases hgains.mem_iff.1 hother with hknown | rfl
  · exact hK.1.onWait hknown
  · exact hc

theorem forgetContext (hK : Minding Good hand Made h) (name : String) :
    Minding Good hand Made { h with state := { h.state with
      contexts := h.state.contexts.forget name } } :=
  hK.changeContexts (hK.1.forgetContext name) (fun _ _ => (Roster.get?_forget ..).trans)
    fun _ _ => Roster.isNamed_forget

/-- **Clients change**, but none is lost, and none that was there gets a name that had none. -/
theorem changeClients (hK : Minding Good hand Made h) {clients : Roster (RateClient S)}
    (hR : Regular Good h.state.limiters h.state.contexts clients h.queue)
    (hle : h.state.clients.members.length ≤ clients.members.length)
    (hnamed : ∀ n < h.state.clients.members.length, clients.isNamed n = true →
      h.state.clients.isNamed n = true) :
    Minding Good hand Made { h with state := { h.state with clients } } := by
  refine ⟨hR, hK.2.1, fun a ha => ?_⟩
  have hM := (hK.2.2 a ha).made
  exact (hK.2.2 a ha).change rfl { hM with client := Nat.lt_of_lt_of_le hM.client hle }
    (fun hS => { hS with client := hnamed _ hM.client hS.client }) fun _ => id

theorem enrollClient (hK : Minding Good hand Made h) (name : String) {c : RateClient S}
    (hc : Good c.onLimit) :
    Minding Good hand Made { h with state := { h.state with
      clients := (h.state.clients.enroll name c).2 } } := by
  have hgains := Roster.gains_enroll h.state.clients name c
  refine hK.changeClients { hK.1 with onLimit := fun hother => ?_ } hgains.length_le
    fun n => Roster.isNamed_of_enroll
  rcases hgains.mem_iff.1 hother with hknown | rfl
  · exact hK.1.onLimit hknown
  · exact hc

theorem forgetClient (hK : Minding Good hand Made h) (name : String) :
    Minding Good hand Made { h with state := { h.state with
      clients := h.state.clients.forget name } } :=
  hK.changeClients (hK.1.forgetClient name) (Roster.length_forget ..).ge
    fun _ _ => Roster.isNamed_forget

/-! ### Registries -/

/-- **Registries let go of limiters**, and stay what they are otherwise. -/
theorem shrink (hK : Minding Good hand Made h) {registries : Table String LimiterRegistry}
    (hregistries : ∀ {name r' id n}, registries.find? name = some r' → r'.find? id = some n →
      ∃ r, h.state.registries.find? name = some r ∧ r.find? id = some n ∧
        r'.startedLimiter = r.startedLimiter) :
    Minding Good hand Made { h with state := { h.state with registries } } := by
  obtain ⟨hR, hG, hO⟩ := hK
  refine ⟨hR, hG.shrink hregistries, fun a ha => (hO a ha).change rfl { (hO a ha).made with }
    (fun hS => { hS with kept := ?_ }) fun _ => id⟩
  obtain ⟨r', hr', hn⟩ := keptBy_eq_some.1 hS.kept
  obtain ⟨r, hr, hn, -⟩ := hregistries hr' hn
  exact keptBy_eq_some.2 ⟨r, hr, hn⟩

/-- A registry is written that keeps nothing else than before. -/
theorem insertRegistry (hK : Minding Good hand Made h) (name : String) (r' : LimiterRegistry)
    (hkeeps : ∀ {id n}, r'.find? id = some n → ∃ r, h.state.registries.find? name = some r ∧
      r.find? id = some n ∧ r'.startedLimiter = r.startedLimiter) :
    Minding Good hand Made { h with state := { h.state with
      registries := h.state.registries.insert name r' } } := by
  refine hK.shrink fun {other r'' id n} hr'' hn => ?_
  by_cases heq : other = name
  · subst heq
    obtain rfl := Option.some.inj ((Table.find?_insert_self ..).symm.trans hr'')
    exact hkeeps hn
  · exact ⟨r'', (Table.find?_insert_of_ne _ _ heq).symm.trans hr'', hn, rfl⟩

/-- **A registry takes a limiter** that it starts, which is not that of an appointment. -/
theorem take (hK : Minding Good hand Made h) {name : String} {r : LimiterRegistry}
    (hr : h.state.registries.find? name = some r) {context : Nat} {target : RateContext S}
    (htarget : h.state.contexts.get? context = some target) :
    Minding Good hand Made
      { state := { h.state with
          limiters := (h.state.limiters.add (r.startedLimiter target.id context)).2
          registries := h.state.registries.insert name
            (r.insert target.id h.state.limiters.members.length) }
        queue := h.queue.accept (.proxied r.proxy (.check h.state.limiters.members.length)) 0 } := by
  have htaken : Minding Good hand Made { h with state := { h.state with
      limiters := (h.state.limiters.add (r.startedLimiter target.id context)).2
      registries := h.state.registries.insert name
        (r.insert target.id h.state.limiters.members.length) } } := by
    obtain ⟨hR, hG, hO⟩ := hK
    have hgains := Roster.gains_add h.state.limiters (r.startedLimiter target.id context)
    refine ⟨hR.changeLimiters fun _ l hl => ⟨l, hgains.get?_of_some hl, rfl⟩, hG.take hr htarget,
      fun a ha => ?_⟩
    have hM := (hO a ha).made
    refine (hO a ha).change rfl
      { hM with limiter := Nat.lt_of_lt_of_le hM.limiter hgains.length_le }
      (fun hS => { hS with kept := ?_ }) fun _ => hgains.get?_of_some
    rcases keptBy_take hr hS.kept with ⟨-, -, heq⟩ | hold
    · exact absurd heq (Nat.ne_of_lt hM.limiter)
    · exact hold
  refine htaken.accept (.check ?_) 0
  exact congrArg (Option.map Limiter.proxy) (Roster.get?_add ..)

end Minding

end Host

end Compositor
