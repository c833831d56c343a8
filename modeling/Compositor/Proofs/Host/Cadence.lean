import Compositor.Proofs.Host.Chains

/-!
# The pace of a limiter

A limiter has its first check when it is started, and each further one an interval after the
one before it. So after some number of checks the next one is due that many intervals after the
start, whatever the clock was advanced by in the meantime and however often. Its client is
told once by each check and once by each call that throttles at once.

This module *watches* one limiter from its start on. It is *live* as long as it is active, its
gate is open and both its targets have their names. What was said holds of a live limiter only,
but then there is nothing to say of one that is not: it will not be live again.

What is called back may throttle at once, too. Such a call is noted when it is over, by
whoever runs the script that it is part of. In between it is *open*: the client was told, but
there is no note yet.
-/

namespace Compositor

variable {S : Type}

/-- Whether it is the event that a client of some name is told. -/
def Event.tells (client : String) : Event S → Bool
  | .limit name => name == client
  | _ => false

/-- Whether it is the note of a part of a script that is a call. -/
def Event.notes (isCall : S → Bool) : Event S → Bool
  | .did part _ => isCall part
  | _ => false

namespace Host

open Compositor.Action

/-- How often clients of a name were told. -/
def told (client : String) (h : Host S) : Nat := h.state.events.countP (Event.tells client)

/-- How many calls were noted. -/
def noted (isCall : S → Bool) (h : Host S) : Nat := h.state.events.countP (Event.notes isCall)

/-- **A limiter that is watched**, as it is while it is live, and the state of affairs at the time
it was started. -/
structure Watch (S : Type) where
  name : String
  number : Nat
  limiter : Limiter
  targets : LimiterTargets
  /-- The name of its client. -/
  client : String
  /-- All clients there are. -/
  callees : List (RateClient S)
  active : limiter.phase = .active
  targets_eq : limiter.targets = some targets
  callee : callees[targets.client]?.map RateClient.name = some client
  /-- Which part of a script is a call to throttle at once. -/
  isCall : S → Bool
  since : Nanos
  /-- How often the client had been told. -/
  told : Nat
  /-- How many calls had been noted. -/
  noted : Nat

/-- The limiter is live: it is active, its gate is open, and its targets have their names. -/
structure Live (w : Watch S) (limiters : Roster Limiter) (proxies : Roster Proxy)
    (contexts : Roster (RateContext S)) (clients : Roster (RateClient S)) : Prop where
  limiter : limiters.get? w.number = some w.limiter
  gate : (proxies.get? w.limiter.proxy).map Proxy.shutDown = some false
  context : contexts.isNamed w.targets.context = true
  client : clients.isNamed w.targets.client = true

/-- What is true of the limiter whether it is live or not: it is as it was started, or it was
stopped; it has one check on its way at most; and no other limiter tells a client of the same
name. -/
structure Watched (w : Watch S) (inHand : Bool) (limiters : Roster Limiter)
    (clients : Roster (RateClient S)) (queue : TaskQueue (Task S)) : Prop where
  name (name : String) : limiters.number? name = some w.number ↔ name = w.name
  started : limiters.get? w.number = some w.limiter ∨
    limiters.get? w.number = some w.limiter.stop
  callees : clients.members = w.callees
  alone {n : Nat} {l : Limiter} {t : LimiterTargets} {c : RateClient S} (hne : n ≠ w.number)
    (hl : limiters.get? n = some l) (ht : l.targets = some t)
    (hc : clients.get? t.client = some c) : c.name ≠ w.client
  single : checksIn queue w.number + inHand.toNat ≤ 1

/-- **The limiter is on time** after a number of checks: its next check is due that many intervals
after the start, and the client was told once by each check and by each call. -/
structure OnTime (w : Watch S) (late : Nanos) (inHand : Bool) (calls : Nat)
    (queue : TaskQueue (Task S)) (events : List (Event S)) (checks : Nat) : Prop where
  chain : checksIn queue w.number + inHand.toNat = 1
  due {q : Pending (Task S)} (hq : q ∈ queue.pending) (hchecks : q.task.checks w.number = true) :
    q.due = w.since + checks * w.limiter.interval
  inHand (hinHand : inHand = true) : queue.now = w.since + checks * w.limiter.interval
  begun : w.since ≤ queue.now
  late : late ≤ w.since + checks * w.limiter.interval
  early : w.since + checks * w.limiter.interval ≤ queue.now + w.limiter.interval
  account : events.countP (Event.tells w.client) + w.noted
    = w.told + checks + events.countP (Event.notes w.isCall) + calls

/-- **The limiter keeps its pace**, if it is live; the clock reads a time, and the next check is
due no earlier than another. The check may be in hand, and calls may be open. -/
def Pacing (Good : S → Prop) (w : Watch S) (late : Nanos) (inHand : Bool) (calls : Nat)
    (now : Nanos) (h : Host S) : Prop :=
  h.queue.now = now ∧ Regular Good h.state.limiters h.state.contexts h.state.clients h.queue ∧
    Watched w inHand h.state.limiters h.state.clients h.queue ∧
    (Live w h.state.limiters h.state.proxies h.state.contexts h.state.clients →
      ∃ checks, OnTime w late inHand calls h.queue h.state.events checks)

variable {Good : S → Prop} {w : Watch S} {late now : Nanos} {inHand : Bool} {calls : Nat}
  {limiters : Roster Limiter} {proxies : Roster Proxy} {contexts : Roster (RateContext S)}
  {clients : Roster (RateClient S)} {queue : TaskQueue (Task S)} {events : List (Event S)}
  {checks : Nat} {h : Host S}

/-- The multiple of an interval that passes a time first, counted from some earlier time on. -/
theorem eq_one_add_div {since now interval n : Nat} (hle : since ≤ now)
    (hlater : now < since + n * interval) (hearly : since + n * interval ≤ now + interval) :
    n = 1 + (now - since) / interval := by
  cases n with
  | zero => omega
  | succ n =>
    rw [Nat.succ_mul] at hlater hearly
    have hdiv : (now - since) / interval = n :=
      Nat.div_eq_of_lt_le (by omega) (by rw [Nat.succ_mul]; omega)
    rw [hdiv, Nat.add_comm]

/-! ## Once dead, always dead -/

namespace Live

/-- A limiter that is live after some limiter was stopped was not the one. -/
theorem of_stop {number : Nat}
    (hlive : Live w (limiters.update number Limiter.stop) proxies contexts clients) :
    number ≠ w.number ∧ Live w limiters proxies contexts clients := by
  rcases Roster.get?_update_eq_some hlive.limiter with ⟨-, l, -, hstopped⟩ | ⟨hne, hlimiter⟩
  · have hactive := w.active
    rw [hstopped] at hactive
    cases hactive
  · exact ⟨Ne.symm hne, { hlive with limiter := hlimiter }⟩

theorem of_updateProxy {proxy : Nat} {f : Proxy → Proxy}
    (hf : ∀ p, (f p).shutDown = false → p.shutDown = false)
    (hlive : Live w limiters (proxies.update proxy f) contexts clients) :
    Live w limiters proxies contexts clients :=
  { hlive with gate := open_of_updateProxy hf hlive.gate }

end Live

/-! ## What happens to the limiter -/

namespace OnTime

/-- The event is neither that the client is told nor the note of a call. -/
theorem emit (hT : OnTime w late inHand calls queue events checks) {e : Event S}
    (htells : e.tells w.client = false) (hnotes : e.notes w.isCall = false) :
    OnTime w late inHand calls queue (e :: events) checks :=
  { hT with
    account := by
      rw [List.countP_cons_of_neg (by rw [htells]; exact Bool.false_ne_true),
        List.countP_cons_of_neg (by rw [hnotes]; exact Bool.false_ne_true)]
      exact hT.account }

/-- **The client is told**, and one more call is open. -/
theorem tell (hT : OnTime w late inHand calls queue events checks) :
    OnTime w late inHand (calls + 1) queue (.limit w.client :: events) checks :=
  { hT with
    account := by
      have haccount := hT.account
      have htells : (Event.limit w.client : Event S).tells w.client = true :=
        beq_self_eq_true w.client
      rw [List.countP_cons_of_pos htells, List.countP_cons_of_neg Bool.false_ne_true]
      omega }

/-- **A call is noted**, and it is not open any more. -/
theorem note {part : S} (reply : Reply)
    (hT : OnTime w late inHand (calls + if w.isCall part then 1 else 0) queue events checks) :
    OnTime w late inHand calls queue (.did part reply :: events) checks :=
  { hT with
    account := by
      have haccount := hT.account
      rw [List.countP_cons_of_neg Bool.false_ne_true, List.countP_cons]
      show _ = w.told + checks + (_ + if w.isCall part = true then 1 else 0) + calls
      omega }

/-- **How many checks there were** by the time the next one is due later than the clock reads: one
at the start, and one for each interval since. -/
theorem checks_eq (hT : OnTime w late inHand calls queue events checks) (hlate : queue.now < late) :
    checks = 1 + (queue.now - w.since) / w.limiter.interval :=
  eq_one_add_div hT.begun (Nat.lt_of_lt_of_le hlate hT.late) hT.early

/-- A task is posted that is no check of the limiter. -/
theorem accept (hT : OnTime w late inHand calls queue events checks) {task : Task S}
    (hno : task.checks w.number = false) (delay : Nanos) :
    OnTime w late inHand calls (queue.accept task delay) events checks :=
  { hT with
    chain := by
      rw [checksIn_accept, hno]
      exact hT.chain
    due := fun {q} hq hchecks => by
      rcases TaskQueue.mem_pending_accept.1 hq with rfl | hq
      · cases hno.symm.trans hchecks
      · exact hT.due hq hchecks }

variable {q : Pending (Task S)} {rest : List (Pending (Task S))}

/-- A task is taken out that is no check of the limiter. -/
theorem pop (hT : OnTime w late inHand calls queue events checks)
    (hpending : queue.pending = q :: rest) (hno : q.task.checks w.number = false)
    (hdue : inHand = true → q.due ≤ queue.now) :
    OnTime w late inHand calls (queue.without q rest) events checks where
  chain := by
    rw [← hT.chain, checksIn_without hpending, hno]
    rfl
  due hr hchecks := hT.due (hpending ▸ List.mem_cons_of_mem _ hr) hchecks
  inHand hinHand := (Nat.max_eq_left (hdue hinHand)).trans (hT.inHand hinHand)
  begun := Nat.le_trans hT.begun (Nat.le_max_left ..)
  late := hT.late
  early := Nat.le_trans hT.early (Nat.add_le_add_right (Nat.le_max_left ..) _)
  account := hT.account

/-- **The check is taken out**, at the time it is due. -/
theorem take (hT : OnTime w late false calls queue events checks) (hinTime : queue.InTime)
    (hpending : queue.pending = q :: rest) (hchecks : q.task.checks w.number = true) :
    OnTime w late true calls (queue.without q rest) events checks := by
  have hmem : q ∈ queue.pending := hpending ▸ List.mem_cons_self ..
  have hnow : (queue.without q rest).now = w.since + checks * w.limiter.interval :=
    (hinTime.now_without hpending).trans (hT.due hmem hchecks)
  refine { hT with
    chain := ?_
    due := fun hr => hT.due (hpending ▸ List.mem_cons_of_mem _ hr)
    inHand := fun _ => hnow
    begun := Nat.le_trans hT.begun (Nat.le_max_left ..)
    early := Nat.le_trans hT.early (Nat.add_le_add_right (Nat.le_max_left ..) _) }
  have hchain := hT.chain
  rw [checksIn_without hpending, if_pos hchecks] at hchain
  exact hchain

/-- **The next check is posted**: what its call told counts for the check from now on. -/
theorem repost (hT : OnTime w late true (calls + 1) queue events checks) :
    OnTime w late false calls
      (queue.accept (.proxied w.limiter.proxy (.check w.number)) w.limiter.interval) events
      (checks + 1) := by
  have hchecks : (Task.proxied w.limiter.proxy (.check w.number) : Task S).checks w.number = true :=
    beq_self_eq_true w.number
  have hnow := hT.inHand rfl
  have hnone : checksIn queue w.number = 0 := Nat.succ.inj hT.chain
  have hnext : w.since + (checks + 1) * w.limiter.interval = queue.now + w.limiter.interval := by
    rw [hnow, Nat.succ_mul, Nat.add_assoc]
  refine ⟨?_, fun {q} hq hq' => ?_, nofun, hT.begun, ?_, Nat.le_of_eq hnext, ?_⟩
  · rw [checksIn_accept, if_pos hchecks, hnone]
    rfl
  · rcases TaskQueue.mem_pending_accept.1 hq with rfl | hq
    · exact hnext.symm
    · exact absurd hq' (List.countP_eq_zero.1 hnone q hq)
  · rw [hnext, hnow]
    exact Nat.le_trans hT.late (Nat.le_add_right ..)
  · have haccount := hT.account
    omega

end OnTime

namespace Watched

variable {number : Nat}

/-- Some limiter is stopped, and forgets its targets. -/
theorem stop (hW : Watched w inHand limiters clients queue) (number : Nat) :
    Watched w inHand (limiters.update number Limiter.stop) clients queue := by
  refine { hW with started := ?_, alone := fun {n l t c} hne hl ht hc => ?_ }
  · by_cases heq : w.number = number
    · subst heq
      rcases hW.started with hl | hl <;> exact .inr (Roster.get?_update_of_some hl _)
    · rw [Roster.get?_update_of_ne _ _ heq]
      exact hW.started
  · rcases Roster.get?_update_eq_some hl with ⟨-, l', -, rfl⟩ | ⟨-, hl⟩
    · cases ht
    · exact hW.alone hne hl ht hc

/-- A limiter that is idle is not the one. -/
theorem ne_of_idle (hW : Watched w inHand limiters clients queue) {l : Limiter}
    (hl : limiters.get? number = some l) (hidle : l.phase = .idle) : w.number ≠ number := by
  rintro rfl
  rcases hW.started with hl' | hl' <;> obtain rfl := Option.some.inj (hl'.symm.trans hl)
  · cases hidle.symm.trans w.active
  · cases hidle

/-- If the limiter has targets, they are those that it was started with. -/
theorem targets_eq (hW : Watched w inHand limiters clients queue) {l : Limiter}
    {t : LimiterTargets} (hl : limiters.get? w.number = some l) (ht : l.targets = some t) :
    t = w.targets := by
  rcases hW.started with hl' | hl' <;> obtain rfl := Option.some.inj (hl'.symm.trans hl)
  · exact Option.some.inj (ht.symm.trans w.targets_eq)
  · cases ht

/-- The limiter is live if it is running and both its targets have their names. -/
theorem live (hW : Watched w inHand limiters clients queue)
    (hrunning : IsRunning limiters proxies w.number)
    (hcontext : contexts.isNamed w.targets.context = true)
    (hclient : clients.isNamed w.targets.client = true) :
    Live w limiters proxies contexts clients := by
  obtain ⟨l, hl, hactive, hopen⟩ := hrunning
  rcases hW.started with hl' | hl' <;> obtain rfl := Option.some.inj (hl'.symm.trans hl)
  · exact ⟨hl, hopen, hcontext, hclient⟩
  · cases hactive

/-- Another limiter is started. -/
theorem start (hW : Watched w inHand limiters clients queue) {l : Limiter}
    (hl : limiters.get? number = some l) (hne : w.number ≠ number) :
    Watched w inHand (limiters.update number fun _ => { l with phase := .active })
      clients queue := by
  refine { hW with started := ?_, alone := fun {n l' t c} hne' hl' ht hc => ?_ }
  · rw [Roster.get?_update_of_ne _ _ hne]
    exact hW.started
  · rcases Roster.get?_update_eq_some hl' with ⟨rfl, -, -, rfl⟩ | ⟨-, hl'⟩
    · exact hW.alone hne' hl ht hc
    · exact hW.alone hne' hl' ht hc

theorem accept (hW : Watched w inHand limiters clients queue) {task : Task S}
    (hno : task.checks w.number = false) (delay : Nanos) :
    Watched w inHand limiters clients (queue.accept task delay) :=
  { hW with
    single := by
      rw [checksIn_accept, hno]
      exact hW.single }

theorem pop (hW : Watched w inHand limiters clients queue) {q : Pending (Task S)}
    {rest : List (Pending (Task S))} (hpending : queue.pending = q :: rest)
    (hno : q.task.checks w.number = false) :
    Watched w inHand limiters clients (queue.without q rest) :=
  { hW with
    single := by
      have hsingle := hW.single
      rw [checksIn_without hpending, hno] at hsingle
      exact hsingle }

/-- The check goes from the queue into the hand, which is empty. -/
theorem take (hW : Watched w inHand limiters clients queue) {q : Pending (Task S)}
    {rest : List (Pending (Task S))} (hpending : queue.pending = q :: rest)
    (hchecks : q.task.checks w.number = true) :
    inHand = false ∧ Watched w true limiters clients (queue.without q rest) := by
  have hsingle := hW.single
  rw [checksIn_without hpending, if_pos hchecks] at hsingle
  cases inHand with
  | true => exact absurd hsingle (by simp)
  | false => exact ⟨rfl, { hW with single := hsingle }⟩

/-- The check goes from the hand into the queue, or is let go of. -/
theorem putBack {queue' : TaskQueue (Task S)} (hW : Watched w true limiters clients queue)
    (hle : checksIn queue' w.number ≤ checksIn queue w.number + 1) :
    Watched w false limiters clients queue' :=
  { hW with single := Nat.le_trans hle hW.single }

end Watched

/-! ## What happens to the host -/

namespace Pacing

/-- Of a limiter that is not live there is nothing to say. -/
theorem of_dead {late' : Nanos} {calls' : Nat} (hK : Pacing Good w late inHand calls now h)
    (hdead : ¬ Live w h.state.limiters h.state.proxies h.state.contexts h.state.clients) :
    Pacing Good w late' inHand calls' now h :=
  ⟨hK.1, hK.2.1, hK.2.2.1, fun hlive => absurd hlive hdead⟩

theorem mono {late' : Nanos} (hK : Pacing Good w late inHand calls now h) (hle : late' ≤ late) :
    Pacing Good w late' inHand calls now h :=
  ⟨hK.1, hK.2.1, hK.2.2.1, fun hlive => (hK.2.2.2 hlive).imp fun _ hT =>
    { hT with late := Nat.le_trans hle hT.late }⟩

/-- The observer sees something else than that the client is told or that a call is noted. -/
theorem emit (hK : Pacing Good w late inHand calls now h) {e : Event S}
    (htells : e.tells w.client = false) (hnotes : e.notes w.isCall = false) :
    Pacing Good w late inHand calls now
      { h with state := { h.state with events := e :: h.state.events } } := by
  obtain ⟨hnow, hR, hW, hT⟩ := hK
  exact ⟨hnow, hR, hW, fun hlive => (hT hlive).imp fun _ hT => hT.emit htells hnotes⟩

theorem tell (hK : Pacing Good w late inHand calls now h) :
    Pacing Good w late inHand (calls + 1) now
      { h with state := { h.state with events := .limit w.client :: h.state.events } } := by
  obtain ⟨hnow, hR, hW, hT⟩ := hK
  exact ⟨hnow, hR, hW, fun hlive => (hT hlive).imp fun _ hT => hT.tell⟩

theorem note {part : S} (reply : Reply)
    (hK : Pacing Good w late inHand (calls + if w.isCall part then 1 else 0) now h) :
    Pacing Good w late inHand calls now
      { h with state := { h.state with events := .did part reply :: h.state.events } } := by
  obtain ⟨hnow, hR, hW, hT⟩ := hK
  exact ⟨hnow, hR, hW, fun hlive => (hT hlive).imp fun _ hT => hT.note reply⟩

/-- Some limiter is stopped. -/
theorem stop (hK : Pacing Good w late inHand calls now h) (number : Nat) :
    Pacing Good w late inHand calls now { h with state := { h.state with
      limiters := h.state.limiters.update number Limiter.stop } } := by
  obtain ⟨hnow, hR, hW, hT⟩ := hK
  exact ⟨hnow, hR.updateLimiter number fun _ _ => rfl, hW.stop number, fun hlive =>
    hT hlive.of_stop.2⟩

/-- A gate changes that was open before if it is open now. -/
theorem updateProxy (hK : Pacing Good w late inHand calls now h) (proxy : Nat) {f : Proxy → Proxy}
    (hf : ∀ p, (f p).shutDown = false → p.shutDown = false) :
    Pacing Good w late inHand calls now { h with state := { h.state with
      proxies := h.state.proxies.update proxy f } } := by
  obtain ⟨hnow, hR, hW, hT⟩ := hK
  exact ⟨hnow, hR, hW, fun hlive => hT (hlive.of_updateProxy hf)⟩

/-- A gate gives up its name, a context or a client. -/
theorem forgetProxy (hK : Pacing Good w late inHand calls now h) (name : String) :
    Pacing Good w late inHand calls now { h with state := { h.state with
      proxies := h.state.proxies.forget name } } := by
  obtain ⟨hnow, hR, hW, hT⟩ := hK
  refine ⟨hnow, hR, hW, fun hlive => hT { hlive with gate := ?_ }⟩
  have hgate := hlive.gate
  rwa [Roster.get?_forget] at hgate

theorem forgetContext (hK : Pacing Good w late inHand calls now h) (name : String) :
    Pacing Good w late inHand calls now { h with state := { h.state with
      contexts := h.state.contexts.forget name } } := by
  obtain ⟨hnow, hR, hW, hT⟩ := hK
  exact ⟨hnow, hR.forgetContext name, hW, fun hlive =>
    hT { hlive with context := Roster.isNamed_forget hlive.context }⟩

theorem forgetClient (hK : Pacing Good w late inHand calls now h) (name : String) :
    Pacing Good w late inHand calls now { h with state := { h.state with
      clients := h.state.clients.forget name } } := by
  obtain ⟨hnow, hR, hW, hT⟩ := hK
  refine ⟨hnow, hR.forgetClient name, ?_, fun hlive =>
    hT { hlive with client := Roster.isNamed_forget hlive.client }⟩
  exact { hW with
    callees := (Roster.members_forget ..).trans hW.callees
    alone := fun hne hl ht hc => hW.alone hne hl ht ((Roster.get?_forget ..).symm.trans hc) }

/-- A task is posted that is no check of the limiter. -/
theorem accept (hK : Pacing Good w late inHand calls now h) {task : Task S}
    (htask : IsThrottling Good h.state.limiters task) (hno : task.checks w.number = false)
    (delay : Nanos) :
    Pacing Good w late inHand calls now { h with queue := h.queue.accept task delay } := by
  obtain ⟨hnow, hR, hW, hT⟩ := hK
  exact ⟨hnow, hR.accept htask delay, hW.accept hno delay, fun hlive =>
    (hT hlive).imp fun _ hT => hT.accept hno delay⟩

variable {q : Pending (Task S)} {rest : List (Pending (Task S))}

/-- A task is taken out that is no check of the limiter. -/
theorem pop (hK : Pacing Good w late inHand calls now h) (hpending : h.queue.pending = q :: rest)
    (hno : q.task.checks w.number = false) (hdue : inHand = true → q.due ≤ now) :
    Pacing Good w late inHand calls (max now q.due)
      { h with queue := h.queue.without q rest } := by
  obtain ⟨rfl, hR, hW, hT⟩ := hK
  exact ⟨rfl, hR.without hpending, hW.pop hpending hno, fun hlive =>
    (hT hlive).imp fun _ hT => hT.pop hpending hno hdue⟩

/-- The check is taken out. -/
theorem take (hK : Pacing Good w late inHand calls now h) (hpending : h.queue.pending = q :: rest)
    (hchecks : q.task.checks w.number = true) :
    inHand = false ∧ Pacing Good w late true calls (max now q.due)
      { h with queue := h.queue.without q rest } := by
  obtain ⟨rfl, hR, hW, hT⟩ := hK
  obtain ⟨rfl, hW'⟩ := hW.take hpending hchecks
  exact ⟨rfl, rfl, hR.without hpending, hW', fun hlive =>
    (hT hlive).imp fun _ hT => hT.take hR.inTime hpending hchecks⟩

/-- The check is let go of, because the limiter is not live any more. -/
theorem letGo {calls' : Nat} (hK : Pacing Good w late true calls' now h)
    (hdead : ¬ Live w h.state.limiters h.state.proxies h.state.contexts h.state.clients) :
    Pacing Good w late false calls now h :=
  ⟨hK.1, hK.2.1, hK.2.2.1.putBack (Nat.le_add_right ..), fun hlive => absurd hlive hdead⟩

/-- **The next check is posted.** -/
theorem repost (hK : Pacing Good w late true (calls + 1) now h) {l : Limiter}
    (hl : h.state.limiters.get? w.number = some l) :
    Pacing Good w late false calls now { h with
      queue := h.queue.accept (.proxied l.proxy (.check w.number)) l.interval } := by
  obtain ⟨hnow, hR, hW, hT⟩ := hK
  refine ⟨hnow, hR.accept (.check (by rw [hl]; rfl)) _, hW.putBack ?_, fun hlive => ?_⟩
  · rw [checksIn_accept]
    split
    · exact Nat.le_refl _
    · exact Nat.le_succ _
  · obtain ⟨checks, hT⟩ := hT hlive
    obtain rfl := Option.some.inj (hl.symm.trans hlive.limiter)
    exact ⟨checks + 1, hT.repost⟩

end Pacing

end Host

end Compositor
