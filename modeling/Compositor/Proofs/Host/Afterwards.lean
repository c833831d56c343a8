import Compositor.Proofs.Host.Chains
import Compositor.Proofs.Host.Enduring

/-!
# What becomes of limiters

A limiter that was made stays for ever, and never goes back: once begun it is not idle again,
once it has stopped it stays so, and until then it knows the targets that it was made with. Of
calls to be seen from some time on, each is the doing of a limiter that had not stopped by
then: it goes out from a check that finds the limiter active (`Afterwards`). And no check of a
limiter that has stopped is posted any more.

A check that is under way goes on, though, when its limiter is stopped by what it calls back:
this is about what begins after the limiter has stopped.
-/

namespace Compositor

/-- A limiter some time later. -/
structure Limiter.Becomes (l l' : Limiter) : Prop where
  id : l'.id = l.id
  proxy : l'.proxy = l.proxy
  interval : l'.interval = l.interval
  begun (hbegun : l.phase ≠ .idle) : l'.phase ≠ .idle
  stopped (hstopped : l.phase = .stopped) : l'.phase = .stopped
  /-- The targets are known as long as it has not stopped. -/
  targets (hup : l'.phase ≠ .stopped) : l'.targets = l.targets

namespace Limiter

variable {l l' l'' : Limiter}

theorem Becomes.refl (l : Limiter) : l.Becomes l :=
  ⟨rfl, rfl, rfl, fun h => h, fun h => h, fun _ => rfl⟩

theorem Becomes.trans (h : l.Becomes l') (h' : l'.Becomes l'') : l.Becomes l'' where
  id := h'.id.trans h.id
  proxy := h'.proxy.trans h.proxy
  interval := h'.interval.trans h.interval
  begun hbegun := h'.begun (h.begun hbegun)
  stopped hstopped := h'.stopped (h.stopped hstopped)
  targets hup := (h'.targets hup).trans (h.targets fun hstopped => hup (h'.stopped hstopped))

theorem becomes_stop (l : Limiter) : l.Becomes l.stop :=
  ⟨rfl, rfl, rfl, fun _ => nofun, fun _ => rfl, fun hup => absurd rfl hup⟩

theorem becomes_start (hidle : l.phase = .idle) : l.Becomes { l with phase := .active } where
  id := rfl
  proxy := rfl
  interval := rfl
  begun _ := nofun
  stopped hstopped := nomatch hidle.symm.trans hstopped
  targets _ := rfl

end Limiter

namespace Host

open Compositor.Action

variable {S : Type}

/-- What was seen is a call to the targets: the context was made to wait, or the client was told. -/
inductive IsCallTo (h : Host S) (t : LimiterTargets) : Event S → Prop where
  | wait {c : RateContext S} (hc : h.state.contexts.get? t.context = some c) :
      IsCallTo h t (.wait c.name)
  | limit {c : RateClient S} (hc : h.state.clients.get? t.client = some c) :
      IsCallTo h t (.limit c.name)

/-- It is a call to the same targets later on, if contexts and clients stay. -/
theorem IsCallTo.later {h h' : Host S} {t : LimiterTargets} {e : Event S} (hcall : IsCallTo h t e)
    (hcontexts : ∀ {number c}, h.state.contexts.get? number = some c →
      h'.state.contexts.get? number = some c)
    (hclients : ∀ {number c}, h.state.clients.get? number = some c →
      h'.state.clients.get? number = some c) : IsCallTo h' t e := by
  cases hcall with
  | wait hc => exact .wait (hcontexts hc)
  | limit hc => exact .limit (hclients hc)

/-- What was seen is the doing of a limiter that has begun. If the limiter was there at some
earlier time, it had not stopped then, and what was called is a target that it had. -/
structure IsCallOf (base h : Host S) (number : Nat) (e : Event S) : Prop where
  begun : ∃ l, h.state.limiters.get? number = some l ∧ l.phase ≠ .idle
  past {l : Limiter} (hl : base.state.limiters.get? number = some l) :
    l.phase ≠ .stopped ∧ ∃ t, l.targets = some t ∧ IsCallTo h t e

/-- That something was seen or posted changes nothing of what tells who has called, and whom. -/
theorem IsCallOf.congr {base h h' : Host S} {number : Nat} {e : Event S}
    (hcall : IsCallOf base h number e) (hlimiters : h'.state.limiters = h.state.limiters)
    (hcontexts : h'.state.contexts = h.state.contexts)
    (hclients : h'.state.clients = h.state.clients) : IsCallOf base h' number e where
  begun := hlimiters ▸ hcall.begun
  past hl := by
    obtain ⟨hup, t, ht, hto⟩ := hcall.past hl
    exact ⟨hup, t, ht, hto.later (fun hc => hcontexts ▸ hc) fun hc => hclients ▸ hc⟩

/-- What has to do with limiters: themselves, their targets, their checks and what is seen of
them. -/
structure ThrottleFacets (S : Type) where
  limiters : Roster Limiter
  contexts : Roster (RateContext S)
  clients : Roster (RateClient S)
  pending : List (Pending (Task S))
  events : List (Event S)

def Facets.throttleFacets (f : Facets S) : ThrottleFacets S where
  limiters := f.limiters
  contexts := f.contexts
  clients := f.clients
  pending := f.queue.pending
  events := f.events

def throttleFacets (h : Host S) : ThrottleFacets S := h.facets.throttleFacets

/-- **What became of the limiters of a host since some time.** -/
structure Afterwards (base h : Host S) : Prop where
  stays {number : Nat} {l : Limiter} (hl : base.state.limiters.get? number = some l) :
    ∃ l', h.state.limiters.get? number = some l' ∧ l.Becomes l'
  contexts {number : Nat} {c : RateContext S} (hc : base.state.contexts.get? number = some c) :
    h.state.contexts.get? number = some c
  clients {number : Nat} {c : RateClient S} (hc : base.state.clients.get? number = some c) :
    h.state.clients.get? number = some c
  /-- Whoever calls had not stopped by then. -/
  seen : ∃ news, h.state.events = news ++ base.state.events ∧
    ∀ e ∈ news, e.isCall = true → ∃ number, IsCallOf base h number e
  /-- No check is posted of a limiter that had stopped. -/
  checks {number : Nat} {l : Limiter} (hl : base.state.limiters.get? number = some l)
    (hstopped : l.phase = .stopped) : checksIn h.queue number ≤ checksIn base.queue number

namespace Afterwards

variable {h₁ h₂ h₃ : Host S}

/-- Nothing was called since. -/
theorem silent
    (hstays : ∀ {number l}, h₁.state.limiters.get? number = some l →
      ∃ l', h₂.state.limiters.get? number = some l' ∧ l.Becomes l')
    (hcontexts : ∀ {number c}, h₁.state.contexts.get? number = some c →
      h₂.state.contexts.get? number = some c)
    (hclients : ∀ {number c}, h₁.state.clients.get? number = some c →
      h₂.state.clients.get? number = some c)
    (hchecks : ∀ {number l}, h₁.state.limiters.get? number = some l → l.phase = .stopped →
      checksIn h₂.queue number ≤ checksIn h₁.queue number)
    (hevents : h₂.state.events = h₁.state.events) : Afterwards h₁ h₂ :=
  ⟨hstays, hcontexts, hclients, ⟨[], hevents, fun _ => nofun⟩, hchecks⟩

/-- Whatever changed has nothing to do with limiters. -/
theorem beside {h h' : Host S} (hsame : h'.throttleFacets = h.throttleFacets) :
    Afterwards h h' := by
  have hlimiters : h'.state.limiters = h.state.limiters := congrArg ThrottleFacets.limiters hsame
  have hcontexts : h'.state.contexts = h.state.contexts := congrArg ThrottleFacets.contexts hsame
  have hclients : h'.state.clients = h.state.clients := congrArg ThrottleFacets.clients hsame
  have hpending : h'.queue.pending = h.queue.pending := congrArg ThrottleFacets.pending hsame
  refine .silent (fun hl => ⟨_, hlimiters ▸ hl, .refl _⟩) (fun hc => hcontexts ▸ hc)
    (fun hc => hclients ▸ hc) (fun _ _ => ?_) (congrArg ThrottleFacets.events hsame)
  unfold checksIn
  rw [hpending]

theorem refl (h : Host S) : Afterwards h h := .beside rfl

/-- What was called later, by one who had not stopped by then, was called by one who had not
stopped before. -/
theorem isCallOf (h : Afterwards h₁ h₂) {number : Nat} {e : Event S}
    (hcall : IsCallOf h₂ h₃ number e) : IsCallOf h₁ h₃ number e where
  begun := hcall.begun
  past hl := by
    obtain ⟨l', hl', hbecomes⟩ := h.stays hl
    obtain ⟨hup, t, ht, hto⟩ := hcall.past hl'
    exact ⟨fun hstopped => hup (hbecomes.stopped hstopped), t, (hbecomes.targets hup).symm.trans ht,
      hto⟩

theorem trans (h : Afterwards h₁ h₂) (h' : Afterwards h₂ h₃) : Afterwards h₁ h₃ where
  stays hl := by
    obtain ⟨l', hl', hbecomes⟩ := h.stays hl
    obtain ⟨l'', hl'', hbecomes'⟩ := h'.stays hl'
    exact ⟨l'', hl'', hbecomes.trans hbecomes'⟩
  contexts hc := h'.contexts (h.contexts hc)
  clients hc := h'.clients (h.clients hc)
  seen := by
    obtain ⟨news, hevents, hnews⟩ := h.seen
    obtain ⟨news', hevents', hnews'⟩ := h'.seen
    refine ⟨news' ++ news, by rw [hevents', hevents, List.append_assoc], fun e he hcalled => ?_⟩
    rcases List.mem_append.1 he with he | he
    · obtain ⟨number, hcall⟩ := hnews' e he hcalled
      exact ⟨number, h.isCallOf hcall⟩
    · obtain ⟨number, hcall⟩ := hnews e he hcalled
      obtain ⟨l, hl, hbegun⟩ := hcall.begun
      obtain ⟨l', hl', hbecomes⟩ := h'.stays hl
      refine ⟨number, ⟨l', hl', hbecomes.begun hbegun⟩, fun hbase => ?_⟩
      obtain ⟨hup, t, ht, hto⟩ := hcall.past hbase
      exact ⟨hup, t, ht, hto.later h'.contexts h'.clients⟩
  checks hl hstopped := by
    obtain ⟨l', hl', hbecomes⟩ := h.stays hl
    exact Nat.le_trans (h'.checks hl' (hbecomes.stopped hstopped)) (h.checks hl hstopped)

/-- Something was seen, and if it is a call, it is the doing of a limiter that had not stopped. -/
theorem see {h : Host S} (hafter : Afterwards h₁ h) {e : Event S}
    (hcall : e.isCall = true → ∃ number, IsCallOf h₁ h number e) :
    Afterwards h₁ { h with state := { h.state with events := e :: h.state.events } } := by
  obtain ⟨news, hevents, hnews⟩ := hafter.seen
  refine { hafter with seen := ⟨e :: news, by rw [hevents]; rfl, fun e' he' hcalled => ?_⟩ }
  rcases List.mem_cons.1 he' with rfl | he'
  · obtain ⟨number, hof⟩ := hcall hcalled
    exact ⟨number, hof.congr rfl rfl rfl⟩
  · obtain ⟨number, hof⟩ := hnews e' he' hcalled
    exact ⟨number, hof.congr rfl rfl rfl⟩

/-! ## What changes of a host lead to -/

/-- No facet of the host changed. -/
theorem aside {h h' : Host S} (hsame : h'.facets = h.facets) : Afterwards h h' :=
  .beside (congrArg Facets.throttleFacets hsame)

/-- Limiters went forward, and there may be more of them. -/
theorem relimit (h : Host S) {limiters : Roster Limiter}
    (hstays : ∀ {number l}, h.state.limiters.get? number = some l →
      ∃ l', limiters.get? number = some l' ∧ l.Becomes l') :
    Afterwards h { h with state := { h.state with limiters } } :=
  .silent hstays id id (fun _ _ => Nat.le_refl _) rfl

/-- One limiter became another. -/
theorem updateLimiter (h : Host S) (number : Nat) {f : Limiter → Limiter}
    (hf : ∀ l, h.state.limiters.get? number = some l → l.Becomes (f l)) :
    Afterwards h { h with state := { h.state with
      limiters := h.state.limiters.update number f } } := by
  refine .relimit h fun {n l} hl => ?_
  by_cases heq : n = number
  · subst heq
    exact ⟨f l, Roster.get?_update_of_some hl f, hf l hl⟩
  · exact ⟨l, (Roster.get?_update_of_ne _ _ heq).trans hl, .refl l⟩

/-- An idle limiter was started. -/
theorem started (h : Host S) {number : Nat} {l : Limiter}
    (hl : h.state.limiters.get? number = some l) (hidle : l.phase = .idle) :
    Afterwards h { h with state := { h.state with
      limiters := h.state.limiters.update number fun _ => { l with phase := .active } } } :=
  .updateLimiter h number fun l' hl' => by
    obtain rfl := Option.some.inj (hl.symm.trans hl')
    exact Limiter.becomes_start hidle

/-- The queue changed, without a new check of a limiter that had stopped. -/
theorem requeue (h : Host S) {queue : TaskQueue (Task S)}
    (hchecks : ∀ {number l}, h.state.limiters.get? number = some l → l.phase = .stopped →
      checksIn queue number ≤ checksIn h.queue number) : Afterwards h { h with queue } :=
  .silent (fun hl => ⟨_, hl, .refl _⟩) id id hchecks rfl

/-- There are more contexts to call, or their names changed. -/
theorem recontext (h : Host S) {contexts : Roster (RateContext S)}
    (hcontexts : ∀ {number c}, h.state.contexts.get? number = some c →
      contexts.get? number = some c) :
    Afterwards h { h with state := { h.state with contexts } } :=
  .silent (fun hl => ⟨_, hl, .refl _⟩) hcontexts id (fun _ _ => Nat.le_refl _) rfl

/-- There are more clients to tell, or their names changed. -/
theorem reclient (h : Host S) {clients : Roster (RateClient S)}
    (hclients : ∀ {number c}, h.state.clients.get? number = some c →
      clients.get? number = some c) :
    Afterwards h { h with state := { h.state with clients } } :=
  .silent (fun hl => ⟨_, hl, .refl _⟩) id hclients (fun _ _ => Nat.le_refl _) rfl

/-- A check is posted of a limiter that had not stopped. -/
theorem posted {h : Host S} (hafter : Afterwards h₁ h) {number : Nat} {l : Limiter}
    (hup : ∀ l, h₁.state.limiters.get? number = some l → l.phase ≠ .stopped) (delay : Nanos) :
    Afterwards h₁
      { h with queue := h.queue.accept (.proxied l.proxy (.check number)) delay } where
  stays := hafter.stays
  contexts := hafter.contexts
  clients := hafter.clients
  seen := by
    obtain ⟨news, hevents, hnews⟩ := hafter.seen
    refine ⟨news, hevents, fun e he hcalled => ?_⟩
    obtain ⟨n, hof⟩ := hnews e he hcalled
    exact ⟨n, hof.congr rfl rfl rfl⟩
  checks {n l'} hl' hstopped := by
    have hne : number ≠ n := by
      rintro rfl
      exact hup l' hl' hstopped
    rw [checksIn_accept, Task.checks_check, if_neg (by rwa [beq_iff_eq])]
    exact hafter.checks hl' hstopped

end Afterwards

/-- **Every single change of a host leaves limiters as they are, or takes them forward.** -/
theorem enduring_afterwards (base : Host S) : Enduring (Afterwards base) (Afterwards base) where
  halted _ hh := hh
  aside hh hsame := hh.trans (.aside hsame)
  haltedAside hh hsame := hh.trans (.aside hsame)
  seen hh _ _ hcall _ := hh.see fun hcalled => nomatch hcall.symm.trans hcalled
  posted hh _ htask _ _ := hh.trans (.requeue _ fun {n _} _ _ => by
    rw [checksIn_accept, htask.1 n]
    exact Nat.le_refl _)
  kept hh _ _ _ := hh.trans (.beside rfl)
  released hh _ := hh.trans (.beside rfl)
  gated hh _ := hh.trans (.beside rfl)
  barMade hh _ _ := hh.trans (.beside rfl)
  painted hh _ _ _ _ := hh.trans (.beside rfl)
  started hh _ _ hl hidle := hh.trans (.started _ hl hidle)
  startedPosting hh _ _ hl hidle _ := by
    refine (hh.trans (.started _ hl hidle)).posted (fun l' hl' hstopped => ?_) 0
    obtain ⟨l₁, hl₁, hbecomes⟩ := hh.stays hl'
    obtain rfl := Option.some.inj (hl.symm.trans hl₁)
    exact nomatch hidle.symm.trans (hbecomes.stopped hstopped)
  stopped hh _ := hh.trans (.updateLimiter _ _ fun l _ => l.becomes_stop)
  made hh _ _ hgains _ := hh.trans (.relimit _ fun hl => ⟨_, hgains.get?_of_some hl, .refl _⟩)
  unnamed hh _ := hh.trans (.relimit _ fun hl => ⟨_, (Roster.get?_forget ..).trans hl, .refl _⟩)
  contextMade hh _ _ := hh.trans (.recontext _ fun hc => (Roster.gains_enroll ..).get?_of_some hc)
  contextDropped hh _ := hh.trans (.recontext _ fun hc => (Roster.get?_forget ..).trans hc)
  clientMade hh _ _ := hh.trans (.reclient _ fun hc => (Roster.gains_enroll ..).get?_of_some hc)
  clientDropped hh _ := hh.trans (.reclient _ fun hc => (Roster.get?_forget ..).trans hc)
  evolved hh _ := hh.trans (.beside rfl)
  misreported hh _ _ _ _ := hh.trans (.beside rfl)
  managerMade hh _ _ _ := hh.trans (.beside rfl)
  managerDropped hh _ := hh.trans (.beside rfl)
  restubbed hh _ := hh.trans (.beside rfl)
  fadeSeen hh _ _ _ := hh.see Bool.false_ne_true.elim
  framePosted hh _ _ _ := hh.trans (.requeue _ fun {n _} _ _ => by
    rw [checksIn_accept]
    exact Nat.le_refl _)
  barChanged hh _ _ := hh.trans (.beside rfl)
  moved hh _ _ _ := hh.trans (.requeue _ fun _ _ => Nat.le_refl _)
  taken hh _ _ hpending := hh.trans (.requeue _ fun {n _} _ _ => by
    rw [checksIn_without hpending n]
    exact Nat.le_add_right ..)
  cleared hh := hh.trans (.requeue _ fun _ _ => Nat.zero_le _)
  accepts hh _ := hh.trans (.requeue _ fun _ _ => Nat.le_refl _)

/-! ## What calls back -/

section Callbacks

variable {run : S → Act S Unit}
  (hrun : ∀ base script, (run script).Preserves (Afterwards base) (Afterwards base))
  (base : Host S)

include hrun

/-- **Throttling calls only if the limiter is active**, as of the time of the call. -/
theorem preserves_limitNow_afterwards (number : Nat) :
    (Host.limitNow run number).Preserves (Afterwards base) (Afterwards base) := by
  have hP := enduring_afterwards base
  refine fun h hh => ends_limitNow number (fun _ => hh) (fun _ _ _ _ => hP.stopped hh number)
    fun l t hl hactive ht => ?_
  -- the limiter is active now, whatever becomes of it while it calls
  have hof {h' : Host S} {e : Event S} (hafter : Afterwards h h') (hto : IsCallTo h' t e) :
      IsCallOf h h' number e := by
    obtain ⟨l', hl', hbecomes⟩ := hafter.stays hl
    refine ⟨⟨l', hl', hbecomes.begun (by rw [hactive]; exact nofun)⟩, fun hl' => ?_⟩
    obtain rfl := Option.some.inj (hl.symm.trans hl')
    exact ⟨by rw [hactive]; exact nofun, t, ht, hto⟩
  have hcall : (callTargets run t).Preserves (Afterwards h) (Afterwards h) :=
    preserves_callTargets (enduring_afterwards h).holding
      (fun _ _ hafter hc => hafter.see fun _ => ⟨number, hof hafter (.wait hc)⟩)
      (fun _ _ hafter hc => hafter.see fun _ => ⟨number, hof hafter (.limit hc)⟩) (hrun h)
  exact (hcall h (.refl h)).imp (fun _ _ hafter => hh.trans hafter) fun _ _ hafter =>
    hh.trans hafter

/-- A check posts the next one only if its limiter had not stopped. -/
theorem preserves_runCheck_afterwards (number : Nat) :
    (Host.runCheck run number).Preserves (Afterwards base) (Afterwards base) := by
  have hP := enduring_afterwards base
  by_cases hstopped : ∃ l, base.state.limiters.get? number = some l ∧ l.phase = .stopped
  · obtain ⟨l, hl, hstopped⟩ := hstopped
    intro h hh
    obtain ⟨l', hl', hbecomes⟩ := hh.stays hl
    have hvain := runCheck_of_stopped hl' (hbecomes.stopped hstopped) run
    exact (on_eq_ok_iff.1 hvain).imp (fun _ _ hsame => hsame.2 ▸ hh) fun _ _ => False.elim
  · refine preserves_runCheck (preserves_limitNow_afterwards hrun base number) fun delay h hh => ?_
    unfold Host.postCheck
    rw [ends_bind, ends_residents]
    cases hl : h.state.limiters.get? number with
    | none => exact hh
    | some l =>
      refine (ends_map ..).2 (ends_post_cases (fun _ _ => hh.posted (fun l hl hphase => ?_) delay) hh
        fun _ => hh)
      exact hstopped ⟨l, hl, hphase⟩

/-- Passes, checks and tasks take limiters forward if scripts do. -/
theorem callsBack_afterwards : CallsBack run (Afterwards base) (Afterwards base) := by
  have hP := enduring_afterwards base
  have hmanage := hP.manage (hrun base)
    (fun _ _ hcall _ hh => hh.see fun hcalled => nomatch hcall.symm.trans hcalled)
    (fun _ _ hh => hh.trans (.beside rfl))
    fun _ _ hh => hh.trans (.beside rfl)
  have htask (task : Task S) : (runTask run task).Preserves (Afterwards base) (Afterwards base) :=
    hP.runTask (hrun base) hmanage fun number _ => preserves_runCheck_afterwards hrun base number
  refine ⟨hmanage, preserves_limitNow_afterwards hrun base, fun hh hpop => ?_, fun hh _ => ?_⟩
  · obtain ⟨q, rest, hpending, rfl, rfl⟩ := TaskQueue.popNext_eq_some.1 hpop
    exact htask _ _ (hP.taken hh hpending)
  · exact htask _ _ (hP.released hh _)

end Callbacks

end Host

end Compositor
