import Compositor.Proofs.Host.Exclusive
import Compositor.Proofs.Scenario.Lookup
import Compositor.Proofs.Scenario.Run

/-!
# A registry never runs two limiters for one context

A *registering* step is about one registry and what it needs: it makes or drops contexts,
clients and gates, starts limiters through the registry, stops one or all of them,
suspends the registry, makes it anew or lets go of it, posts, or pumps the runner. The
runner may refuse posts and its queue may be cleared, steps may be done on another thread,
and what is called back consists of such steps, too.

In every course of registering steps, whatever comes of each, the limiters that are active
are those that the registry keeps, one for each number of a context. Stopping takes effect
at once: what is in the queue of a limiter that was stopped calls nobody any more.
-/

namespace Compositor.Step

open Compositor.Action Host

/-- **A step about the registry of a name**, and so is whatever it has called back. -/
inductive Registering (name : String) : Step → Prop where
  | offThread {step : Step} (hstep : Registering name step) : Registering name (.offThread step)
  | runUntilIdle : Registering name .runUntilIdle
  | advance (span : Nanos) : Registering name (.advance span)
  | runNext : Registering name .runNext
  | clearPending : Registering name .clearPending
  | accept (on : Bool) : Registering name (.accept on)
  | runnerInfo : Registering name .runnerInfo
  | post (label : String) (delay : Nanos) (proxy : Option String) {script : Script}
    (hscript : ∀ step ∈ script, Registering name step) :
    Registering name (.post label delay .none proxy script)
  | newProxy (proxy : String) : Registering name (.newProxy proxy)
  | shutdownProxy (proxy : String) : Registering name (.shutdownProxy proxy)
  | dropProxy (proxy : String) : Registering name (.dropProxy proxy)
  | newContext (context : String) (id : ContextId) {onWait : Script}
    (hwait : ∀ step ∈ onWait, Registering name step) :
    Registering name (.newContext context id onWait)
  | dropContext (context : String) : Registering name (.dropContext context)
  | newClient (client : String) {onLimit : Script}
    (hlimit : ∀ step ∈ onLimit, Registering name step) :
    Registering name (.newClient client onLimit)
  | dropClient (client : String) : Registering name (.dropClient client)
  | newRegistry (proxy client : String) (interval : Nanos) :
    Registering name (.newRegistry name proxy client interval)
  | registryStart (context : String) : Registering name (.registryStart name context)
  | registryStop (id : ContextId) : Registering name (.registryStop name id)
  | registryStopAll : Registering name (.registryStopAll name)
  | registrySuspend (on : Bool) : Registering name (.registrySuspend name on)
  | registryIsActive (id : ContextId) : Registering name (.registryIsActive name id)
  | dropRegistry : Registering name (.dropRegistry name)

/-- A script of steps about the registry of a name. -/
def RegisteringScript (name : String) (script : Script) : Prop :=
  ∀ step ∈ script, Registering name step

/-- The only registry of a host, that of the name, keeps what is active, and what is called back
is about it. -/
abbrev Registers (name : String) (before : Roster Limiter) : Host Script → Prop :=
  Exclusively (RegisteringScript name) name before

variable {name : String} {before : Roster Limiter} {h : Host Script}

theorem indifferent_registers : Indifferent (Registers name before) (Registers name before) where
  onThread _ _ h := h
  inUse _ _ h := h
  groupIds _ _ h := h
  groupHandles _ _ h := h
  snapshots _ _ h := h
  haltedOnThread _ _ h := h
  haltedInUse _ _ h := h

/-! ## What an embedder changes -/

theorem preserves_newContext_registers (context : String) (id : ContextId) {onWait : Script}
    (hwait : RegisteringScript name onWait) :
    (change fun r => { r with
      contexts := (r.contexts.enroll context { name := context, id, onWait }).2 }
        : Act Script Unit).Preserves (Registers name before) (Registers name before) := by
  refine preserves_change fun h hX => ?_
  have hgains := Roster.gains_enroll h.state.contexts context { name := context, id, onWait }
  refine ⟨{ hX.1 with onWait := fun hc => ?_ }, hX.2.changeContexts fun n c hc =>
    hgains.get?_of_some hc⟩
  rcases hgains.mem_iff.1 hc with hknown | rfl
  · exact hX.1.onWait hknown
  · exact hwait

theorem preserves_newClient_registers (client : String) {onLimit : Script}
    (hlimit : RegisteringScript name onLimit) :
    (change fun r => { r with
      clients := (r.clients.enroll client { name := client, onLimit }).2 }
        : Act Script Unit).Preserves (Registers name before) (Registers name before) := by
  refine preserves_change fun h hX => ⟨{ hX.1 with onLimit := fun hc => ?_ }, hX.2⟩
  rcases (Roster.gains_enroll ..).mem_iff.1 hc with hknown | rfl
  · exact hX.1.onLimit hknown
  · exact hlimit

/-- A context that gives up its name is still there, and so is a client. -/
theorem preserves_dropContext_registers (context : String) :
    (change fun r => { r with contexts := r.contexts.forget context }
      : Act Script Unit).Preserves (Registers name before) (Registers name before) :=
  preserves_change fun _ hX =>
    ⟨{ hX.1 with onWait := fun hc => hX.1.onWait (by rwa [Roster.members_forget] at hc) },
      hX.2.changeContexts fun _ _ hc => (Roster.get?_forget ..).trans hc⟩

theorem preserves_dropClient_registers (client : String) :
    (change fun r => { r with clients := r.clients.forget client }
      : Act Script Unit).Preserves (Registers name before) (Registers name before) :=
  preserves_change fun _ hX =>
    ⟨{ hX.1 with onLimit := fun hc => hX.1.onLimit (by rwa [Roster.members_forget] at hc) },
      hX.2⟩

/-- A registry is made where there was none or one that is let go of. -/
theorem preserves_newRegistry_registers (proxy client : String) (interval : Nanos) :
    (Host.newRegistry name proxy client interval).Preserves (Registers name before)
      (Registers name before) := by
  refine preserves_residents.bind fun r => ?_
  split
  · next proxy client _ _ =>
    intro h hX
    unfold Host.dropRegistry
    simp only [ends_bind]
    refine (ends_registryStopAll hX).imp (fun _ h' hstopped => ?_) fun _ _ => False.elim
    obtain ⟨hX', hnone⟩ := hstopped
    have herased : ∀ id, keptBy (h'.state.registries.erase name) name id = none := fun id => by
      unfold keptBy
      rw [Table.find?_erase_self]
      rfl
    refine ⟨hX'.1, (hX'.2.erase hnone).rewrite (fun id n => ?_) fun _ _ _ n hn => ?_⟩
    · rw [herased]
      exact iff_of_false (Option.some_ne_none n).symm (Option.some_ne_none n).symm
    · cases hn
  · exact .pure _

theorem preserves_registrySuspend_registers (on : Bool) :
    (do
      withNamed ((← residents).registries.find? name) fun registry => do
        let registry := { registry with suspended := on }
        change fun r => { r with registries := r.registries.insert name registry }
        return .done : Act Script Reply).Preserves (Registers name before)
      (Registers name before) := by
  intro h hX
  rw [ends_bind, ends_residents]
  cases hr : h.state.registries.find? name with
  | none => exact hX
  | some r =>
    have hkept (id : ContextId) (n : Nat) :
        ({ r with suspended := on } : LimiterRegistry).find? id = some n ↔
          keptBy h.state.registries name id = some n := by
      unfold keptBy
      rw [hr, Option.bind_some]
      rfl
    refine ⟨hX.1, hX.2.rewrite hkept fun r' hr' _ _ _ => ?_⟩
    obtain rfl := Option.some.inj (hr.symm.trans hr')
    rfl

/-! ## Every registering step -/

/-- **Every registering step preserves that the registry keeps what is active**, if the
registering scripts that are run meanwhile do. -/
theorem preserves_perform_registers {run : Script → Act Script Unit}
    (hrun : ∀ script, RegisteringScript name script →
      (run script).Preserves (Registers name before) (Registers name before))
    (fuel : Nat) {step : Step} (hstep : Registering name step) :
    (perform run fuel step).Preserves (Registers name before) (Registers name before) := by
  have hP : Indifferent (Registers name before) (Registers name before) := indifferent_registers
  have hpopped := ends_popped_exclusively hrun
  induction hstep with
  | offThread _ ih => rw [perform]; exact hP.offThread ih
  | runUntilIdle =>
    rw [perform]
    exact (EventLoop.preserves_runUntilIdle (fun _ => id) hpopped fuel).bind fun _ => .pure _
  | advance span =>
    rw [perform]
    exact (EventLoop.preserves_advance (fun _ => id) hpopped (fun _ _ hX _ _ => hX) fuel span).bind
      fun _ => .pure _
  | runNext => rw [perform]; exact (EventLoop.preserves_runNext hpopped).bind fun _ => .pure _
  | clearPending =>
    rw [perform]
    exact .bind (.write fun _ hX => ⟨{ hX.1 with posted := nofun }, hX.2⟩) fun _ => .pure _
  | accept on =>
    rw [perform]
    exact .bind (.write fun _ hX => hX) fun _ => .pure _
  | runnerInfo => rw [perform]; exact preserves_residents.bind fun _ => .pure _
  | post label delay proxy hscript =>
    rw [perform]
    cases proxy with
    | none =>
      exact preserves_post_plain label delay (preserves_post_exclusively (.scripted hscript) delay)
    | some gate =>
      exact preserves_post_gated label delay gate fun proxy =>
        preserves_post_exclusively (.proxied proxy (.scripted hscript)) delay
  | newProxy proxy =>
    rw [perform]
    refine preserves_residents.bind fun r => ?_
    split
    · exact .pure _
    · exact .bind (preserves_change fun _ hX => hX) fun _ => .pure _
  | shutdownProxy proxy =>
    rw [perform]
    refine preserves_lookUp fun number => .bind (preserves_residents.bind fun r => ?_)
      fun _ => .pure _
    split
    · exact .pure _
    · exact .bind (preserves_change fun _ hX => hX) fun _ => .ofExcept (fun _ => id) _
  | dropProxy proxy =>
    rw [perform]
    exact preserves_residents.bind fun _ => .bind (preserves_change fun _ hX => hX)
      fun _ => .pure _
  | newContext context id hwait =>
    rw [perform]
    exact (preserves_newContext_registers context id hwait).bind fun _ => .pure _
  | dropContext context =>
    rw [perform]
    exact preserves_residents.bind fun _ => (preserves_dropContext_registers context).bind
      fun _ => .pure _
  | newClient client hlimit =>
    rw [perform]
    exact (preserves_newClient_registers client hlimit).bind fun _ => .pure _
  | dropClient client =>
    rw [perform]
    exact preserves_residents.bind fun _ => (preserves_dropClient_registers client).bind
      fun _ => .pure _
  | newRegistry proxy client interval =>
    rw [perform]
    exact preserves_newRegistry_registers proxy client interval
  | registryStart context =>
    rw [perform]
    refine preserves_residents.bind fun r => ?_
    split
    · next context _ _ =>
      refine .bind (fun h hX => ?_) fun _ => .pure _
      exact (ends_registryStart_exclusively hX context).imp (fun _ _ hstarted => hstarted.1)
        fun _ _ => id
    · exact .pure _
  | registryStop id =>
    rw [perform]
    exact preserves_lookUp fun _ => (preserves_registryStop_exclusively id).bind fun _ => .pure _
  | registryStopAll =>
    rw [perform]
    exact preserves_lookUp fun _ => preserves_registryStopAll_exclusively.bind fun _ => .pure _
  | registrySuspend on => rw [perform]; exact preserves_registrySuspend_registers on
  | registryIsActive id =>
    rw [perform]
    exact preserves_residents.bind fun _ => preserves_withNamed _ fun _ => .pure _
  | dropRegistry =>
    rw [perform]
    exact preserves_residents.bind fun _ => preserves_dropRegistry_exclusively.bind
      fun _ => .pure _

/-- The same for steps within steps, whatever the fuel. -/
theorem preserves_exec_registers (fuel : Nat) {step : Step} (hstep : Registering name step) :
    (exec fuel step).Preserves (Registers name before) (Registers name before) := by
  induction fuel generalizing step with
  | zero => exact .halt (fun _ => id) _
  | succ fuel ih =>
    refine preserves_perform_registers (fun script hscript => ?_) fuel hstep
    exact .forM fun inner hinner => (ih (hscript inner hinner)).bind fun _ _ hX => hX

/-- What was there before now may be told from now on. -/
theorem Registers.fromNow (hX : Registers name before h) :
    Registers name h.state.limiters h :=
  ⟨hX.1, hX.2.fromNow⟩

/-- What the registry keeps after it was told to stop all of its limiters is nothing. -/
theorem size_eq_zero_of_keptBy
    (hnone : ∀ id, keptBy h.state.registries name id = none) {r : LimiterRegistry}
    (hr : h.state.registries.find? name = some r) : r.size = 0 := by
  have hkeys : r.limiters.keys = [] := by
    refine List.eq_nil_iff_forall_not_mem.2 fun id => Table.find?_eq_none_iff.1 ?_
    have hnone := hnone id
    unfold keptBy at hnone
    rwa [hr] at hnone
  unfold LimiterRegistry.size Table.size
  exact List.length_eq_zero_iff.2 (List.map_eq_nil_iff.1 hkeys)

/-! ## One limiter for each context -/

/-- **A registry never runs two limiters for one context.** The only registry of a host keeps
what is active, on a new host, after every course of registering steps from there, whatever
comes of each, and while the scripts run that such a step calls back. On every such host – so
also in the middle of a callback – the following holds.

A limiter that is active is kept by the registry under its own number, no other active limiter
has that number, and the context that it calls has it, too. To stop the limiter of a number
comes to an answer; nothing is kept under the number then, and it is *quiet*: all limiters of
the number have stopped. To stop all limiters leaves the registry empty and every number quiet.
While a number is quiet, whatever check of a limiter of it is in the queue calls nobody when it
has its turn: taken from the queue, at any time and on any host with these limiters. (A check
that is under way when its own callback stops the limiter is not in the queue, and nothing is
said of what is left of it.) Quiet lasts through any course of registering steps, unless
meanwhile a limiter is made for the number; and to start the limiter of a context either
changes nothing, or makes a limiter for its number, which the registry keeps. -/
theorem registry_runs_one_limiter_for_each_context (name : String) :
    (∀ runner platform steps h, (∀ step ∈ steps, Registering name step) →
      Course (Host.new runner platform) steps h → Registers name {} h) ∧
    (∀ before (run : Script → Act Script Unit),
      (∀ script, RegisteringScript name script →
        (run script).Preserves (Registers name before) (Registers name before)) →
      ∀ fuel step, Registering name step →
        (perform run fuel step).Preserves (Registers name before) (Registers name before)) ∧
    ∀ before (h : Host Script), Registers name before h →
      (∀ n l, h.state.limiters.get? n = some l → l.phase = .active →
        keptBy h.state.registries name l.id = some n ∧
        (∀ n' l', h.state.limiters.get? n' = some l' → l'.phase = .active → l'.id = l.id →
          n' = n) ∧
        ∃ context client c, l.targets = some ⟨context, client⟩ ∧
          h.state.contexts.get? context = some c ∧ c.id = l.id) ∧
      (∀ id, ∃ h', (Host.registryStop name id).on h = (.ok (), h') ∧ Registers name before h' ∧
        keptBy h'.state.registries name id = none ∧ IsQuiet id h') ∧
      (∃ h', (Host.registryStopAll name).on h = (.ok (), h') ∧ Registers name before h' ∧
        (∀ r, h'.state.registries.find? name = some r → r.size = 0) ∧ ∀ id, IsQuiet id h') ∧
      (∀ id, IsQuiet id h →
        (∀ q ∈ h.queue.pending, ∀ n l, q.task.checks n = true →
          h.state.limiters.get? n = some l → l.id = id →
          ∀ (h₁ : Host Script) (run : Script → Act Script Unit),
            h₁.state.limiters = h.state.limiters → ∃ proxies, (runTask run q.task).on h₁
              = (.ok (), { h₁ with state := { h₁.state with proxies } })) ∧
        ∀ steps h', (∀ step ∈ steps, Registering name step) → Course h steps h' →
          IsQuiet id h' ∨ ∃ n l, h.state.limiters.get? n = none ∧
            h'.state.limiters.get? n = some l ∧ l.id = id) ∧
      ∀ context, (Host.registryStart name context).Ends h
        (fun _ h' => h' = h ∨ TakesEffect name context h h') fun _ _ => True := by
  have hcourse {before : Roster Limiter} {steps : List Step} {h h' : Host Script}
      (hsteps : ∀ step ∈ steps, Registering name step) (hcourse : Course h steps h')
      (hX : Registers name before h) : Registers name before h' :=
    hcourse.preserves_of_mem
      (fun step hstep fuel => preserves_exec_registers fuel (hsteps step hstep)) hX
  refine ⟨fun runner platform steps h hsteps hfrom => ?_, fun before run hrun fuel step hstep => ?_,
    fun before h hX => ⟨fun n l hl hactive => ⟨?_, fun n' l' hl' hactive' hid => ?_, ?_⟩,
      fun id => ?_, ?_, fun id hquiet => ⟨fun q hq n l hchecks hl hid h₁ run hsame => ?_,
        fun steps h' hsteps hfrom => ?_⟩, fun context => ?_⟩⟩
  · exact hcourse hsteps hfrom ⟨⟨nofun, nofun, nofun⟩, .empty name _⟩
  · exact preserves_perform_registers hrun fuel hstep
  · exact hX.2.active hl hactive
  · exact hX.2.eq_of_active hl' hactive' hl hactive hid
  · obtain ⟨r, context, -, hmade, hid⟩ := hX.2.exists_context hl hactive
    obtain ⟨c, hc, hid⟩ := Option.map_eq_some_iff.1 hid
    refine ⟨context, r.client, c, ?_, hc, hid⟩
    rw [hmade]
    rfl
  · obtain ⟨_, h', hon, hX', hnone, -⟩ := ends_false_iff.1 (ends_registryStop hX id)
    exact ⟨h', hon, hX', hnone, isQuiet_of_keptBy hX' hnone⟩
  · obtain ⟨_, h', hon, hX', hnone⟩ := ends_false_iff.1 (ends_registryStopAll hX)
    exact ⟨h', hon, hX', fun r => size_eq_zero_of_keptBy hnone,
      fun id => isQuiet_of_keptBy hX' (hnone id)⟩
  · exact runTask_of_stopped hchecks (by rw [hsame]; exact hl) (hquiet n l hl hid) run
  · exact hquiet.lasts (hcourse hsteps hfrom hX.fromNow)
  · exact (ends_registryStart_exclusively hX context).imp (fun _ _ hstarted => hstarted.2)
      fun _ _ _ => trivial

/-- A limiter is stopped while its first check is in the queue, and started again. -/
def restart : List Step :=
  [.newProxy "io", .newClient "ui" [], .newRegistry "all" "io" "ui" 16, .newContext "tab" 5 [],
    .registryStart "all" "tab", .registryStop "all" 5, .registryStart "all" "tab"]

/-- Two limiters were made for the context, and both have a check in the queue. Only the second
is active, and it is the one that is kept. Once all are stopped the check of the first one has
the next turn; it is taken from the queue and calls nobody. -/
theorem registry_runs_one_limiter_restart :
    ∃ h h' l l' task queue, Course (Host.new "main" .desktop) restart h ∧ Registers "all" {} h ∧
      h.state.limiters.get? 0 = some l ∧ l.phase = .stopped ∧
      h.state.limiters.get? 1 = some l' ∧ l'.phase = .active ∧ l'.id = 5 ∧
      keptBy h.state.registries "all" 5 = some 1 ∧
      (Host.registryStopAll "all").on h = (.ok (), h') ∧ Registers "all" {} h' ∧
      (∀ id, IsQuiet id h') ∧ h'.queue.popNext = some (task, queue) ∧ task.checks 0 = true ∧
      ∃ proxies, (runTask (fun _ => throw .outOfFuel) task).on { h' with queue }
        = (.ok (), { h' with queue, state := { h'.state with proxies } }) := by
  have hsteps : ∀ step ∈ restart, Registering "all" step := by
    unfold restart
    simp only [List.forall_mem_cons]
    exact ⟨.newProxy _, .newClient _ (List.forall_mem_nil _), .newRegistry _ _ _,
      .newContext _ _ (List.forall_mem_nil _), .registryStart _, .registryStop _,
      .registryStart _, List.forall_mem_nil _⟩
  have hcourse := course_endOf 9 restart (Host.new "main" .desktop)
  have hlimiters : ((endOf 9 restart (Host.new "main" .desktop)).state.limiters.get? 0,
      (endOf 9 restart (Host.new "main" .desktop)).state.limiters.get? 1)
        = (some ⟨5, 0, 16, .stopped, none⟩, some ⟨5, 0, 16, .active, some ⟨0, 0⟩⟩) := by
    decide +kernel
  have hlast : (Prod.map (fun _ => ()) (fun h' : Host Script =>
      (h'.queue.pending.head?.map fun q => q.task.checks 0, h'.state.limiters.get? 0))
        ((Host.registryStopAll "all").on (endOf 9 restart (Host.new "main" .desktop))))
          = ((), some true, some ⟨5, 0, 16, .stopped, none⟩) := by
    decide +kernel
  generalize hh : endOf 9 restart (Host.new "main" .desktop) = h at hcourse hlimiters hlast
  obtain ⟨hl, hl'⟩ := Prod.mk.inj hlimiters
  obtain ⟨hnew, -, hfacts⟩ := registry_runs_one_limiter_for_each_context "all"
  have hX := hnew _ _ _ _ hsteps hcourse
  obtain ⟨hactive, -, ⟨h', hon, hX', -, hquiet⟩, -⟩ := hfacts {} h hX
  obtain ⟨hkept, -⟩ := hactive 1 _ hl' rfl
  rw [hon] at hlast
  obtain ⟨hhead, hgone⟩ := Prod.mk.inj (Prod.mk.inj hlast).2
  obtain ⟨q, hq, hchecks⟩ := Option.map_eq_some_iff.1 hhead
  obtain ⟨rest, hpending⟩ := List.head?_eq_some_iff.1 hq
  have hpop := TaskQueue.popNext_eq_some.2 ⟨q, rest, hpending, rfl, rfl⟩
  obtain ⟨-, -, -, hvain, -⟩ := hfacts {} h' hX'
  have hnobody := (hvain 5 (hquiet 5)).1 q (List.mem_of_mem_head? hq) 0 _ hchecks hgone rfl
  exact ⟨h, h', _, _, _, _, hcourse, hX, hl, rfl, hl', rfl, rfl, hkept, hon, hX', hquiet, hpop,
    hchecks, hnobody _ _ rfl⟩

end Compositor.Step
