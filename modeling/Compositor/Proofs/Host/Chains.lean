import Compositor.Proofs.Host.Limiting

/-!
# One chain of checks for each limiter

A limiter posts a check when it is started, and each check that reaches its targets posts the
next one. Nobody else posts checks, and a limiter is started once. So of each limiter there is
at most one check on its way: in the queue, or *in hand* while it is being run and has not yet
posted the next one. A limiter that is running – it is active, and its gate is open – has
exactly one.

While a check is in hand, its limiter calls back, and what is called back may do anything: stop
the limiter, start others, pump the queue. Other checks may be in hand then, too, one inside the
other. So the account is of the checks in the queue together with a list of limiters whose
checks are in hand.
-/

namespace Compositor.Host

open Compositor.Action

variable {S : Type}

/-- How many checks of a limiter are in a queue. -/
def checksIn (queue : TaskQueue (Task S)) (limiter : Nat) : Nat :=
  queue.pending.countP fun q => q.task.checks limiter

/-- The limiter was not started, if it is there at all. -/
def IsUnstarted (limiters : Roster Limiter) (number : Nat) : Prop :=
  ∀ l, limiters.get? number = some l → l.phase = .idle

/-- The limiter is active, and its gate is open. -/
def IsRunning (limiters : Roster Limiter) (proxies : Roster Proxy) (number : Nat) : Prop :=
  ∃ l, limiters.get? number = some l ∧ l.phase = .active ∧
    (proxies.get? l.proxy).map Proxy.shutDown = some false

/-- **Each limiter has one chain of checks at most**, counting those in the queue and those in
hand, none before it is started, and one while it is running. -/
structure Chained (hand : List Nat) (limiters : Roster Limiter) (proxies : Roster Proxy)
    (queue : TaskQueue (Task S)) : Prop where
  single (n : Nat) : checksIn queue n + hand.count n ≤ 1
  unstarted {n : Nat} (hn : IsUnstarted limiters n) : checksIn queue n + hand.count n = 0
  running {n : Nat} (hn : IsRunning limiters proxies n) : checksIn queue n + hand.count n = 1

/-- The gates of limiters are there, and those of registries, which go to their limiters. Limiters
and gates have sound names. -/
structure Gated (limiters : Roster Limiter) (proxies : Roster Proxy)
    (registries : Table String LimiterRegistry) : Prop where
  limiterNames : limiters.Sound
  proxyNames : proxies.Sound
  limiter {n : Nat} {l : Limiter} (hl : limiters.get? n = some l) :
    l.proxy < proxies.members.length
  registry {name : String} {r : LimiterRegistry} (hr : registries.find? name = some r) :
    r.proxy < proxies.members.length

/-- Each limiter of a host has one chain of checks at most, and what waits and what is called
back is in order. -/
def Chaining (Good : S → Prop) (hand : List Nat) (h : Host S) : Prop :=
  Regular Good h.state.limiters h.state.contexts h.state.clients h.queue ∧
    Gated h.state.limiters h.state.proxies h.state.registries ∧
    Chained hand h.state.limiters h.state.proxies h.queue

variable {Good : S → Prop} {hand : List Nat} {limiters limiters' : Roster Limiter}
  {proxies proxies' : Roster Proxy} {registries : Table String LimiterRegistry}
  {queue queue' : TaskQueue (Task S)} {number : Nat}

theorem checksIn_accept (task : Task S) (delay : Nanos) (n : Nat) :
    checksIn (queue.accept task delay) n
      = checksIn queue n + if task.checks n = true then 1 else 0 := by
  unfold checksIn TaskQueue.accept
  rw [(TaskQueue.insert_perm _ _).countP_eq, List.countP_cons]
  rfl

theorem checksIn_without {q : Pending (Task S)} {rest : List (Pending (Task S))}
    (hpending : queue.pending = q :: rest) (n : Nat) :
    checksIn queue n
      = checksIn (queue.without q rest) n + if q.task.checks n = true then 1 else 0 := by
  unfold checksIn
  rw [hpending, List.countP_cons]
  rfl

theorem limiterIsActive_iff {r : Residents S} :
    limiterIsActive r number = true ↔ IsRunning r.limiters r.proxies number := by
  unfold limiterIsActive IsRunning
  cases r.limiters.get? number with
  | none => exact ⟨nofun, nofun⟩
  | some l =>
    have hopen (gate : Option Bool) : (!gate.getD true) = true ↔ gate = some false := by
      rcases gate with _ | _ | _ <;> decide
    dsimp only
    rw [Bool.and_eq_true, decide_eq_true_eq, hopen]
    constructor
    · exact fun hrunning => ⟨l, rfl, hrunning⟩
    · rintro ⟨_, ⟨⟩, hrunning⟩
      exact hrunning

/-- A limiter that has begun is active until it stops, as long as its gate is open. -/
theorem limiterIsActive_iff_of_begun {r : Residents S} {l : Limiter}
    (hl : r.limiters.get? number = some l) (hbegun : l.phase ≠ .idle) :
    limiterIsActive r number = true ↔
      l.phase ≠ .stopped ∧ (r.proxies.get? l.proxy).map Proxy.shutDown = some false := by
  rw [limiterIsActive_iff]
  constructor
  · rintro ⟨l', hl', hactive, hopen⟩
    obtain rfl := Option.some.inj (hl.symm.trans hl')
    exact ⟨by rw [hactive]; exact nofun, hopen⟩
  · rintro ⟨hup, hopen⟩
    refine ⟨l, hl, ?_, hopen⟩
    cases hphase : l.phase with
    | idle => exact absurd hphase hbegun
    | active => rfl
    | stopped => exact absurd hphase hup

/-- A gate is open after some gate changed, which was open before if it is open now: then it was
open before. -/
theorem open_of_updateProxy {proxy gate : Nat} {f : Proxy → Proxy}
    (hf : ∀ p, (f p).shutDown = false → p.shutDown = false)
    (hopen : ((proxies.update proxy f).get? gate).map Proxy.shutDown = some false) :
    (proxies.get? gate).map Proxy.shutDown = some false := by
  obtain ⟨p', hp', hshut⟩ := Option.map_eq_some_iff.1 hopen
  rcases Roster.get?_update_eq_some hp' with ⟨-, p, hp, rfl⟩ | ⟨-, hp⟩
  · rw [hp, Option.map_some, hf p hshut]
  · rw [hp, Option.map_some, hshut]

/-! ## What changes no chain -/

namespace Chained

/-- Limiters and gates may change, as long as none is made idle or set running by it. -/
theorem mono (hC : Chained hand limiters proxies queue)
    (hunstarted : ∀ n, IsUnstarted limiters' n → IsUnstarted limiters n)
    (hrunning : ∀ n, IsRunning limiters' proxies' n → IsRunning limiters proxies n) :
    Chained hand limiters' proxies' queue where
  single := hC.single
  unstarted hn := hC.unstarted (hunstarted _ hn)
  running hn := hC.running (hrunning _ hn)

/-- Checks may go from the queue into a hand and back. -/
theorem congr {hand' : List Nat} (hC : Chained hand limiters proxies queue)
    (hcount : ∀ n, checksIn queue' n + hand'.count n = checksIn queue n + hand.count n) :
    Chained hand' limiters proxies queue' where
  single n := Nat.le_trans (Nat.le_of_eq (hcount n)) (hC.single n)
  unstarted hn := (hcount _).trans (hC.unstarted hn)
  running hn := (hcount _).trans (hC.running hn)

/-- **A check in hand is let go of**, once its limiter is not running any more. -/
theorem letGo (hC : Chained (number :: hand) limiters proxies queue)
    (hdead : ¬ IsRunning limiters proxies number) : Chained hand limiters proxies queue := by
  have hcount (n : Nat) := List.count_cons (a := n) (b := number) (l := hand)
  refine ⟨fun n => ?_, fun {n} hn => ?_, fun {n} hn => ?_⟩
  · have hsingle := hC.single n
    rw [hcount] at hsingle
    omega
  · have hunstarted := hC.unstarted hn
    rw [hcount] at hunstarted
    omega
  · have hrunning := hC.running hn
    have hne : ¬ (number == n) = true := fun heq => hdead (beq_iff_eq.1 heq ▸ hn)
    rwa [hcount, if_neg hne] at hrunning

/-- A gate changes that was open before if it is open now. -/
theorem updateProxy (hC : Chained hand limiters proxies queue) (proxy : Nat) {f : Proxy → Proxy}
    (hf : ∀ p, (f p).shutDown = false → p.shutDown = false) :
    Chained hand limiters (proxies.update proxy f) queue := by
  refine hC.mono (fun _ => id) ?_
  rintro n ⟨l, hl, hactive, hopen⟩
  exact ⟨l, hl, hactive, open_of_updateProxy hf hopen⟩

/-- A limiter is stopped. -/
theorem stop (hC : Chained hand limiters proxies queue) (number : Nat) :
    Chained hand (limiters.update number Limiter.stop) proxies queue := by
  refine hC.mono (fun n hn l hl => ?_) ?_
  · by_cases heq : n = number
    · subst heq
      cases hn l.stop (Roster.get?_update_of_some hl _)
    · exact hn l (by rw [Roster.get?_update_of_ne _ _ heq, hl])
  · rintro n ⟨l', hl', hactive, hopen⟩
    rcases Roster.get?_update_eq_some hl' with ⟨-, l, -, rfl⟩ | ⟨-, hl⟩
    · cases hactive
    · exact ⟨l', hl, hactive, hopen⟩

/-- **The first check**: a limiter that is idle is started, and posts it. -/
theorem start (hC : Chained hand limiters proxies queue) {l : Limiter}
    (hl : limiters.get? number = some l) (hidle : l.phase = .idle) :
    Chained hand (limiters.update number fun _ => { l with phase := .active }) proxies
      (queue.accept (.proxied l.proxy (.check number)) 0) := by
  have hself : (limiters.update number fun _ => { l with phase := .active }).get? number
      = some { l with phase := .active } := Roster.get?_update_of_some hl _
  have hother {n : Nat} (hne : n ≠ number) :
      (limiters.update number fun _ => { l with phase := .active }).get? n = limiters.get? n :=
    Roster.get?_update_of_ne _ _ hne
  have hcount (n : Nat) : checksIn (queue.accept (.proxied l.proxy (.check number)) 0) n
      = checksIn queue n + if number = n then 1 else 0 := by
    rw [checksIn_accept]
    simp
  have hnone : checksIn queue number + hand.count number = 0 :=
    hC.unstarted fun l' hl' => (Option.some.inj (hl.symm.trans hl')) ▸ hidle
  refine ⟨fun n => ?_, fun {n} hn => ?_, fun {n} hn => ?_⟩
  · rw [hcount]
    split
    · next heq => rw [← heq]; omega
    · exact hC.single n
  · have hne : n ≠ number := by
      rintro rfl
      cases hn _ hself
    rw [hcount, if_neg (Ne.symm hne)]
    exact hC.unstarted fun l' hl' => hn l' ((hother hne).trans hl')
  · rw [hcount]
    by_cases heq : number = n
    · rw [if_pos heq, ← heq]
      omega
    · rw [if_neg heq]
      obtain ⟨l', hl', hrunning⟩ := hn
      exact hC.running ⟨l', (hother (Ne.symm heq)).symm.trans hl', hrunning⟩

end Chained

namespace Gated

/-- Gates may change, and there may be more of them. -/
theorem changeProxies (hG : Gated limiters proxies registries) (hnames : proxies'.Sound)
    (hle : proxies.members.length ≤ proxies'.members.length) :
    Gated limiters proxies' registries where
  limiterNames := hG.limiterNames
  proxyNames := hnames
  limiter hl := Nat.lt_of_lt_of_le (hG.limiter hl) hle
  registry hr := Nat.lt_of_lt_of_le (hG.registry hr) hle

theorem updateProxy (hG : Gated limiters proxies registries) (proxy : Nat) (f : Proxy → Proxy) :
    Gated limiters (proxies.update proxy f) registries :=
  hG.changeProxies (hG.proxyNames.update proxy f)
    (Roster.length_update ..).ge

/-- A limiter changes that keeps its gate. -/
theorem updateLimiter (hG : Gated limiters proxies registries) (number : Nat)
    {f : Limiter → Limiter}
    (hproxy : ∀ l, limiters.get? number = some l → (f l).proxy = l.proxy) :
    Gated (limiters.update number f) proxies registries :=
  { hG with
    limiterNames := hG.limiterNames.update number f
    limiter := fun hl' => by
      rcases Roster.get?_update_eq_some hl' with ⟨rfl, l, hl, rfl⟩ | ⟨-, hl⟩
      · rw [hproxy l hl]
        exact hG.limiter hl
      · exact hG.limiter hl }

/-- A limiter is added that has a gate. -/
theorem addLimiter (hG : Gated limiters proxies registries) {l : Limiter}
    (hgains : limiters.Gains l limiters') (hnames : limiters'.Sound)
    (hl : l.proxy < proxies.members.length) : Gated limiters' proxies registries :=
  { hG with
    limiterNames := hnames
    limiter := fun hl' => by
      rcases hgains.get?_eq_some hl' with hknown | ⟨-, rfl⟩
      · exact hG.limiter hknown
      · exact hl }

/-- A registry is put under a name that has a gate. -/
theorem insertRegistry (hG : Gated limiters proxies registries) (name : String)
    {r : LimiterRegistry} (hr : r.proxy < proxies.members.length) :
    Gated limiters proxies (registries.insert name r) :=
  { hG with
    registry := fun {other r'} hr' => by
      by_cases heq : other = name
      · rw [heq, Table.find?_insert_self] at hr'
        cases hr'
        exact hr
      · rw [Table.find?_insert_of_ne _ _ heq] at hr'
        exact hG.registry hr' }

theorem eraseRegistry (hG : Gated limiters proxies registries) (name : String) :
    Gated limiters proxies (registries.erase name) :=
  { hG with
    registry := fun hr => hG.registry (Table.find?_of_erase hr) }

end Gated

/-- A limiter is added that is idle. -/
theorem Chained.addLimiter (hC : Chained hand limiters proxies queue) {l : Limiter}
    (hgains : limiters.Gains l limiters') (hidle : l.phase = .idle) :
    Chained hand limiters' proxies queue := by
  refine hC.mono (fun n hn l' hl' => hn l' (hgains.get?_of_some hl')) ?_
  rintro n ⟨l', hl', hactive, hopen⟩
  rcases hgains.get?_eq_some hl' with hknown | ⟨-, rfl⟩
  · exact ⟨l', hknown, hactive, hopen⟩
  · cases hidle.symm.trans hactive

/-- A gate is added that no limiter has. -/
theorem Chained.addProxy (hC : Chained hand limiters proxies queue)
    (hG : Gated limiters proxies registries) {p : Proxy} (hgains : proxies.Gains p proxies') :
    Chained hand limiters proxies' queue := by
  refine hC.mono (fun _ => id) ?_
  rintro n ⟨l, hl, hactive, hopen⟩
  obtain ⟨p', hp', hshut⟩ := Option.map_eq_some_iff.1 hopen
  rcases hgains.get?_eq_some hp' with hknown | ⟨hnone, -⟩
  · exact ⟨l, hl, hactive, Option.map_eq_some_iff.2 ⟨p', hknown, hshut⟩⟩
  · exact absurd (hG.limiter hl) (Nat.not_lt.2 (List.getElem?_eq_none_iff.1 hnone))

variable {run : S → Act S Unit} {h : Host S}

/-! ## What limiters do -/

/-- What a limiter is as it stops. -/
theorem Chaining.stop (hC : Chaining Good hand h) (number : Nat) :
    Chaining Good hand { h with state := { h.state with
      limiters := h.state.limiters.update number Limiter.stop } } := by
  obtain ⟨hR, hG, hC⟩ := hC
  exact ⟨hR.updateLimiter number fun _ _ => rfl, hG.updateLimiter number fun _ _ => rfl,
    hC.stop number⟩

theorem keeps_stopLimiter_chaining (number : Nat) :
    (stopLimiter number).Keeps (Chaining Good hand : Host S → Prop) :=
  fun _ hC => hC.stop number

/-- **Starting** a limiter posts its first check, if it is the first start. -/
theorem keeps_startLimiter_chaining (number : Nat) :
    (startLimiter number).Keeps (Chaining Good hand : Host S → Prop) := by
  rintro h ⟨hR, hG, hC⟩
  refine ends_startLimiter hR.accepting number (fun _ => ⟨hR, hG, hC⟩) fun l hl hidle => ?_
  have hproxy (l' : Limiter) (hl' : h.state.limiters.get? number = some l') :
      l.proxy = l'.proxy := by
    rw [Option.some.inj (hl.symm.trans hl')]
  have hcheck : IsThrottling Good
      (h.state.limiters.update number fun _ => { l with phase := .active })
      (.proxied l.proxy (.check number)) :=
    .check (congrArg (Option.map Limiter.proxy) (Roster.get?_update_of_some hl _))
  exact ⟨(hR.updateLimiter number (f := fun _ => { l with phase := .active }) hproxy).accept
    hcheck 0, hG.updateLimiter number hproxy, hC.start hl hidle⟩

/-- A task may be posted that is no check. -/
theorem keeps_post_chaining {task : Task S}
    (htask : ∀ limiters, IsThrottling Good limiters task) (hno : ∀ n, task.checks n = false)
    (delay : Nanos) :
    (EventLoop.post task delay : Act S Bool).Keeps (Chaining Good hand) := by
  rintro h ⟨hR, hG, hC⟩
  refine ends_post_accepting hR.accepting ⟨hR.accept (htask _) delay, hG, hC.congr fun n => ?_⟩
  rw [checksIn_accept, hno n]
  rfl

/-- The account of checks survives calls, if what is called keeps it. -/
theorem callStable_chaining
    (hrun : ∀ script, Good script → (run script).Keeps (Chaining Good hand)) :
    CallStable run Good (Chaining Good hand) where
  run := hrun _
  onWait hC hc := hC.1.onWait (List.mem_of_getElem? hc)
  onLimit hC hc := hC.1.onLimit (List.mem_of_getElem? hc)
  inUse _ _ hC := hC
  ran _ _ _ hC := hC
  wait _ _ hC := hC
  drop proxy := by
    rintro h ⟨hR, hG, hC⟩
    exact ⟨hR, hG.updateProxy proxy _, hC.updateProxy proxy fun _ => id⟩

/-- **Throttling once.** If a target was not reached then the limiter is not running. -/
theorem ends_limitNow_chaining
    (hrun : ∀ script, Good script → (run script).Keeps (Chaining Good hand)) (number : Nat)
    (hC : Chaining Good hand h) :
    (limitNow run number).Ends h
      (fun reached h' => Chaining Good hand h' ∧
        (reached = false → ¬ IsRunning h'.state.limiters h'.state.proxies number))
      fun _ _ => True := by
  have hstable := callStable_chaining hrun
  refine ends_limitNow number (fun hinactive => ⟨hC, fun _ => ?_⟩)
    (fun l hl hactive _ => ⟨hC.stop number, fun _ => ?_⟩) fun l t hl hactive ht => ?_
  · rintro ⟨l, hl, hactive, -⟩
    exact hinactive l hl hactive
  · rintro ⟨l', hl', hactive', -⟩
    cases (Roster.get?_update_of_some hl _).symm.trans hl'
    cases hactive'
  · exact (ends_callTargets hstable hstable t (fun _ _ hC' _ => hC') (fun _ hC' _ => hC') hC).imp
      (fun _ _ hC' => ⟨hC', nofun⟩) fun _ _ _ => trivial

theorem keeps_limitNow_chaining
    (hrun : ∀ script, Good script → (run script).Keeps (Chaining Good hand)) (number : Nat) :
    (limitNow run number).Keeps (Chaining Good hand) := fun _ hC =>
  (ends_limitNow_chaining hrun number hC).imp (fun _ _ hlimited => hlimited.1) fun _ _ _ => trivial

/-! ## Pumps -/

section Pumps

variable (hrun : ∀ hand script, Good script → (run script).Keeps (Chaining Good hand))

include hrun

/-- **A check in hand** is put back into the queue as the next one, or it is let go of. -/
theorem ends_runCheck_chaining (hC : Chaining Good (number :: hand) h) :
    (runCheck run number).Ends h (fun _ => Chaining Good hand) fun _ _ => True := by
  have hletGo {h : Host S} (hC : Chaining Good (number :: hand) h)
      (hdead : ¬ IsRunning h.state.limiters h.state.proxies number) : Chaining Good hand h :=
    ⟨hC.1, hC.2.1, hC.2.2.letGo hdead⟩
  refine ends_runCheck (P := Chaining Good (number :: hand)) number ?_
    (fun _ hC => hC.1.accepting) (fun h hC hnone => hletGo hC ?_) fun h l hC hl => ?_
  · refine (ends_limitNow_chaining (hrun _) number hC).imp (fun reached h' hlimited => ?_)
      fun _ _ _ => trivial
    cases reached with
    | true => exact hlimited.1
    | false => exact hletGo hlimited.1 (hlimited.2 rfl)
  · rintro ⟨l, hl, -⟩
    cases hnone.symm.trans hl
  · obtain ⟨hR, hG, hC⟩ := hC
    refine ⟨hR.accept (.check (by rw [hl]; rfl)) _, hG, hC.congr fun n => ?_⟩
    rw [checksIn_accept, List.count_cons, Nat.add_right_comm, Nat.add_assoc]
    rfl

/-- **A task that is taken out of the queue** keeps the account of checks when it is run. -/
theorem ends_runTask_chaining {task : Task S} {queue : TaskQueue (Task S)}
    (hC : Chaining Good hand h) (hpop : h.queue.popNext = some (task, queue)) :
    (runTask run task).Ends { h with queue } (fun _ => Chaining Good hand) fun _ _ => True := by
  obtain ⟨q, rest, hpending, rfl, rfl⟩ := TaskQueue.popNext_eq_some.1 hpop
  obtain ⟨hR, hG, hC⟩ := hC
  have hplain := hR.plain (hpending ▸ List.mem_cons_self ..)
  have hR' := hR.without hpending
  have hcount := checksIn_without hpending
  have hstable := callStable_chaining (hrun hand)
  generalize q.task = task at hplain hcount ⊢
  have hsame (hno : ∀ n, task.checks n = false) :
      Chaining Good hand { h with queue := h.queue.without q rest } := by
    refine ⟨hR', hG, hC.congr fun n => ?_⟩
    rw [hcount, hno n]
    rfl
  cases hplain with
  | scripted hgood => exact hstable.scripted _ hgood _ (hsame fun _ => rfl)
  | proxied hgood => exact hstable.proxied _ _ hgood _ (hsame fun _ => rfl)
  | @check number proxy hproxy =>
    -- the check goes from the queue into the hand
    have hC' : Chained (number :: hand) h.state.limiters h.state.proxies
        (h.queue.without q rest) := hC.congr fun n => by
      rw [hcount, List.count_cons, Nat.add_right_comm, Nat.add_assoc]
      rfl
    rw [ends_runTask_proxied]
    split
    · rw [runTask]
      exact ends_runCheck_chaining hrun ⟨hR', hG, hC'⟩
    · next hshut =>
      have hdead : ¬ IsRunning h.state.limiters h.state.proxies number := by
        rintro ⟨l, hl, -, hopen⟩
        rw [hl] at hproxy
        cases hproxy
        exact hshut hopen
      exact hstable.drop proxy _ ⟨hR', hG, hC'.letGo hdead⟩

/-- **Pumping** keeps the account of checks. -/
theorem keeps_runUntilIdle_chaining (fuel : Nat) :
    (EventLoop.runUntilIdle (runTask run) fuel).Keeps (Chaining Good hand) :=
  EventLoop.keeps_runUntilIdle (fun _ _ _ => ends_runTask_chaining hrun) fuel

theorem keeps_advance_chaining (fuel : Nat) (span : Nanos) :
    (EventLoop.advance (runTask run) fuel span).Keeps (Chaining Good hand) := by
  refine EventLoop.keeps_advance (fun _ _ _ => ends_runTask_chaining hrun) ?_ fuel span
  rintro h now ⟨hR, hG, hC⟩ hnone
  exact ⟨hR.moved hnone, hG, ⟨hC.single, hC.unstarted, hC.running⟩⟩

theorem keeps_runNext_chaining :
    (EventLoop.runNext (runTask run)).Keeps (Chaining Good hand) :=
  EventLoop.keeps_runNext fun _ _ _ => ends_runTask_chaining hrun

end Pumps

/-! ## Gates -/

/-- Shutting a gate. -/
theorem keeps_shutdownProxy_chaining (proxy : Nat) :
    (shutdownProxy proxy).Keeps (Chaining Good hand : Host S → Prop) := by
  rintro h ⟨hR, hG, hC⟩
  exact ends_shutdownProxy proxy (fun _ => ⟨hR, hG, hC⟩) fun p _ =>
    ⟨hR, hG.updateProxy proxy _, hC.updateProxy proxy nofun⟩

/-! ## Registries -/

section Registries

/-- A registry that changes keeps its gate. -/
theorem Chaining.insertRegistry (hC : Chaining Good hand h) (name : String) {r : LimiterRegistry}
    (hr : r.proxy < h.state.proxies.members.length) :
    Chaining Good hand { h with state := { h.state with
      registries := h.state.registries.insert name r } } :=
  ⟨hC.1, hC.2.1.insertRegistry name hr, hC.2.2⟩

theorem Chaining.addLimiter (hC : Chaining Good hand h) {l : Limiter}
    (hgains : h.state.limiters.Gains l limiters) (hnames : limiters.Sound)
    (hidle : l.phase = .idle) (hl : l.proxy < h.state.proxies.members.length) :
    Chaining Good hand { h with state := { h.state with limiters } } := by
  obtain ⟨hR, hG, hC⟩ := hC
  exact ⟨hR.changeLimiters fun _ l' hl' => ⟨l', hgains.get?_of_some hl', rfl⟩,
    hG.addLimiter hgains hnames hl, hC.addLimiter hgains hidle⟩

theorem keeps_registryStart_chaining (name : String) (context : Nat) :
    (registryStart name context).Keeps (Chaining Good hand : Host S → Prop) := by
  intro h hC
  unfold registryStart
  rw [ends_bind, ends_residents]
  cases hregistry : h.state.registries.find? name with
  | none => exact hC
  | some registry =>
    cases h.state.contexts.get? context with
    | none => exact hC
    | some target =>
      have hgate := hC.2.1.registry hregistry
      dsimp only
      split
      · exact hC
      · split
        · exact keeps_startLimiter_chaining _ h hC
        · refine keeps_startLimiter_chaining _ _ ?_
          have hnames := hC.2.1.limiterNames.add (registry.newLimiter target.id context)
          exact (hC.addLimiter (Roster.gains_add ..) hnames rfl hgate).insertRegistry name hgate

theorem keeps_registryStop_chaining (name : String) (id : ContextId) :
    (registryStop name id).Keeps (Chaining Good hand : Host S → Prop) := by
  intro h hC
  unfold registryStop
  rw [ends_bind, ends_residents]
  cases hregistry : h.state.registries.find? name with
  | none => exact hC
  | some registry =>
    dsimp only
    split
    · exact hC
    · have hgate := hC.2.1.registry hregistry
      exact keeps_stopLimiter_chaining _ _ (hC.insertRegistry name (r := registry.erase id) hgate)

theorem keeps_registryStopAll_chaining (name : String) :
    (registryStopAll name).Keeps (Chaining Good hand : Host S → Prop) :=
  preserves_registryStopAll (keeps_registryStop_chaining name)

/-- Letting go of a registry changes nothing but limiters and registries. -/
theorem keeps_dropRegistry_rest {P : Host S → Prop}
    (hP : ∀ h limiters registries, P h →
      P { h with state := { h.state with limiters, registries } }) (name : String) :
    (dropRegistry name).Keeps P := by
  have hstop (id : ContextId) : (registryStop name id).Keeps P := by
    refine keeps_residents.bind fun r => ?_
    split
    · exact .pure _
    · split
      · exact .pure _
      · exact .bind (keeps_change fun h => hP h h.state.limiters _) fun _ =>
          keeps_change fun h => hP h _ h.state.registries
  exact preserves_dropRegistry hstop fun h => hP h h.state.limiters _

theorem keeps_dropRegistry_chaining (name : String) :
    (dropRegistry name).Keeps (Chaining Good hand : Host S → Prop) :=
  preserves_dropRegistry (keeps_registryStop_chaining name) fun _ hC =>
    ⟨hC.1, hC.2.1.eraseRegistry name, hC.2.2⟩

end Registries

end Compositor.Host
