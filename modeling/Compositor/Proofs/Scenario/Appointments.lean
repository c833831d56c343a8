import Compositor.Proofs.Host.Minding
import Compositor.Proofs.Scenario.Chains

/-!
# What a registry starts takes effect

A registry is asked to throttle a context, in whatever state throttling steps have brought the
host. Throttling steps go on, and at last the runner is advanced past the next check. If nobody
has ended the matter by then, the context was made to wait, and the registry says that it is
active.

Two things have to be asked of a limiter that the registry keeps under the number already. It must
not be about a context that is gone: the registry takes such a limiter for a sound one until its
check finds out, and does nothing about the context it is given. And its next check must not be
due later than an interval from now, as it is when somebody who was called back took the clock
ahead and the clock was put back afterwards.
-/

namespace Compositor.Step

open Compositor.Action Host

variable {Made : Appointment → Prop} {h : Host Script}

theorem indifferent_minding {Good : Script → Prop} :
    Indifferent (Minding Good none Made : Host Script → Prop) where
  onThread h onThread hK := hK.beside onThread h.state.inUse h.state.groupIds
    h.state.groupHandles h.state.snapshots
  inUse h inUse hK := hK.beside h.state.onThread inUse h.state.groupIds
    h.state.groupHandles h.state.snapshots
  groupIds h groupIds hK := hK.beside h.state.onThread h.state.inUse groupIds
    h.state.groupHandles h.state.snapshots
  groupHandles h groupHandles hK := hK.beside h.state.onThread h.state.inUse h.state.groupIds
    groupHandles h.state.snapshots
  snapshots h snapshots hK := hK.beside h.state.onThread h.state.inUse h.state.groupIds
    h.state.groupHandles snapshots

/-! ## What an embedder changes -/

section Changes

variable {Good : Script → Prop}

theorem keeps_newProxy_minding (name : String) :
    (Host.newProxy name).Keeps (Minding Good none Made : Host Script → Prop) := by
  refine keeps_residents.bind fun r => ?_
  split
  · exact .pure _
  · exact .bind (keeps_change fun h hK => hK.enrollProxy name {}) fun _ => .pure _

theorem keeps_newLimiter_minding (name context client proxy : String) (interval : Nanos) :
    (Host.newLimiter name context client proxy interval).Keeps
      (Minding Good none Made : Host Script → Prop) := by
  refine keeps_residents.bind fun r => ?_
  split
  · exact keeps_withNamed _ fun target =>
      .bind (keeps_change fun h hK => hK.enrollLimiter name _) fun _ => .pure _
  · exact .pure _

/-- **An embedder stops its own limiters only**: it has no name for one that a registry keeps. -/
theorem ends_stopLimiter_minding {name : String} {number : Nat}
    (hnumber : h.state.limiters.number? name = some number)
    (hK : Minding Good none Made h) :
    (Host.stopLimiter number : Act Script Unit).Ends h (fun _ => Minding Good none Made)
      fun _ _ => True :=
  hK.stop fun _ _ heq hS => hK.2.1.nameless hS.kept name (heq ▸ hnumber)

/-- A registry that is new keeps nothing. -/
theorem keeps_newRegistry_minding (name proxy client : String) (interval : Nanos) :
    (Host.newRegistry name proxy client interval).Keeps
      (Minding Good none Made : Host Script → Prop) := by
  refine keeps_residents.bind fun r => ?_
  split
  · exact (keeps_dropRegistry_minding name).bind fun _ =>
      .bind (keeps_change fun h hK => hK.insertRegistry name _ nofun) fun _ => .pure _
  · exact .pure _

end Changes

/-! ## Every throttling step -/

/-- **Every throttling step observes appointments**, if the throttling scripts that are run
meanwhile do. -/
theorem keeps_perform_minding {run : Script → Act Script Unit}
    (hrun : ∀ script, ThrottlingScript script →
      (run script).Keeps (Minding ThrottlingScript none Made))
    (fuel : Nat) {step : Step} (hstep : Throttling step) :
    (perform run fuel step).Keeps (Minding ThrottlingScript none Made) := by
  have hP : Indifferent (Minding ThrottlingScript none Made) := indifferent_minding
  induction hstep with
  | offThread _ ih => rw [perform]; exact hP.offThread ih
  | runUntilIdle =>
    rw [perform]
    exact (keeps_runUntilIdle_minding hrun fuel).bind fun _ => .pure _
  | advance span =>
    rw [perform]
    exact .bind (fun _ hK => (ends_advance_minding hrun fuel span hK).imp
      (fun _ _ hadvanced => hadvanced.1) fun _ _ _ => trivial) fun _ => .pure _
  | runNext => rw [perform]; exact (keeps_runNext_minding hrun).bind fun _ => .pure _
  | runnerInfo => rw [perform]; exact keeps_residents.bind fun _ => .pure _
  | post label delay proxy hscript =>
    rw [perform]
    cases proxy with
    | none =>
      exact keeps_post_plain label delay (keeps_post_minding (fun _ => .scripted hscript) delay)
    | some name =>
      exact keeps_post_gated label delay name fun proxy =>
        keeps_post_minding (fun _ => .proxied hscript) delay
  | newProxy name => rw [perform]; exact keeps_newProxy_minding name
  | shutdownProxy name =>
    rw [perform]
    exact keeps_lookUp fun number => (keeps_shutdownProxy_minding number).bind fun _ => .pure _
  | dropProxy name =>
    rw [perform]
    exact keeps_residents.bind fun _ => .bind (keeps_change fun _ hK => hK.forgetProxy name)
      fun _ => .pure _
  | newContext name id hwait =>
    rw [perform]
    exact .bind (keeps_change fun _ hK => hK.enrollContext name hwait) fun _ => .pure _
  | dropContext name =>
    rw [perform]
    exact keeps_residents.bind fun _ => .bind (keeps_change fun _ hK => hK.forgetContext name)
      fun _ => .pure _
  | newClient name hlimit =>
    rw [perform]
    exact .bind (keeps_change fun _ hK => hK.enrollClient name hlimit) fun _ => .pure _
  | dropClient name =>
    rw [perform]
    exact keeps_residents.bind fun _ => .bind (keeps_change fun _ hK => hK.forgetClient name)
      fun _ => .pure _
  | newLimiter name context client proxy interval =>
    rw [perform]
    exact keeps_newLimiter_minding name context client proxy interval
  | startLimiter name =>
    rw [perform]
    exact keeps_lookUp fun number => (keeps_startLimiter_minding number).bind fun _ => .pure _
  | stopLimiter name =>
    rw [perform]
    intro h hK
    rw [ends_bind, ends_residents]
    unfold withNamed
    cases hnumber : h.state.limiters.number? name with
    | none => exact hK
    | some number => exact ends_stopLimiter_minding hnumber hK
  | limitNow name =>
    rw [perform]
    exact keeps_lookUp fun number => (keeps_limitNow_minding hrun number).bind fun _ => .pure _
  | dropLimiter name =>
    rw [perform]
    exact keeps_residents.bind fun _ => .bind (keeps_change fun _ hK => hK.forgetLimiter name)
      fun _ => .pure _
  | newRegistry name proxy client interval =>
    rw [perform]
    exact keeps_newRegistry_minding name proxy client interval
  | registryStart name context =>
    rw [perform]
    refine keeps_residents.bind fun r => ?_
    split
    · exact (keeps_registryStart_minding name _).bind fun _ => .pure _
    · exact .pure _
  | registryStop name id =>
    rw [perform]
    exact keeps_lookUp fun _ => (keeps_registryStop_minding name id).bind fun _ => .pure _
  | registryStopAll name =>
    rw [perform]
    exact keeps_lookUp fun _ => (keeps_registryStopAll_minding name).bind fun _ => .pure _
  | registrySuspend name on =>
    rw [perform]
    intro h hK
    rw [ends_bind, ends_residents]
    unfold withNamed
    cases hr : h.state.registries.find? name with
    | none => exact hK
    | some r =>
      exact hK.insertRegistry name { r with suspended := on } fun hn => ⟨r, hr, hn, rfl⟩
  | registryIsActive name id =>
    rw [perform]
    exact keeps_residents.bind fun _ => keeps_withNamed _ fun _ => .pure _
  | dropRegistry name =>
    rw [perform]
    exact keeps_residents.bind fun _ => (keeps_dropRegistry_minding name).bind fun _ => .pure _

/-- The same for steps within steps, whatever the fuel. -/
theorem keeps_exec_minding (fuel : Nat) {step : Step} (hstep : Throttling step) :
    (exec fuel step).Keeps (Minding ThrottlingScript none Made) := by
  induction fuel generalizing step with
  | zero => exact .halt _
  | succ fuel ih =>
    refine keeps_perform_minding (fun script hscript => ?_) fuel hstep
    exact .forM fun inner hinner => (ih (hscript inner hinner)).bind fun _ _ hK => hK.emit _

/-- A script of throttling steps, run with some fuel for each. -/
theorem keeps_script_minding (fuel : Nat) (script : Script) (hscript : ThrottlingScript script) :
    (script.forM fun inner => do note inner (← exec fuel inner) : Act Script PUnit).Keeps
      (Minding ThrottlingScript none Made) :=
  .forM fun inner hinner => (keeps_exec_minding fuel (hscript inner hinner)).bind
    fun _ _ hK => hK.emit _

/-! ## Over whole runs -/

/-- On a new host there are no registries, and no appointments are made. -/
theorem minding_new (runner : String) (platform : Platform) :
    Minding ThrottlingScript none (fun _ => False) (Host.new runner platform : Host Script) :=
  ⟨(chaining_new runner platform).1, .empty, nofun⟩

theorem Run.minding {h h' : Host Script} {steps : List Step} (hrun : Run h steps h')
    (hsteps : ∀ step ∈ steps, Throttling step)
    (hK : Minding ThrottlingScript none Made h) : Minding ThrottlingScript none Made h' :=
  hrun.keeps hK fun step hstep fuel => keeps_exec_minding fuel (hsteps step hstep)

/-- After an advance nothing waits that is due. -/
theorem Does.minding_advance {h h' : Host Script} {span : Nanos} {reply : Reply}
    (hdoes : Does h (.advance span) reply h') (hK : Minding ThrottlingScript none Made h) :
    Minding ThrottlingScript none Made h' ∧ ∀ q ∈ h'.queue.pending, h'.queue.now < q.due := by
  obtain ⟨fuel, hon⟩ := hdoes
  cases fuel with
  | zero => cases hon
  | succ fuel =>
    refine Ends.of_on (E := fun _ _ => True) (Q := fun _ h' =>
      Minding ThrottlingScript none Made h' ∧ ∀ q ∈ h'.queue.pending, h'.queue.now < q.due) ?_ hon
    unfold exec
    rw [perform, ends_bind]
    exact ends_advance_minding (keeps_script_minding fuel) fuel span hK

/-- **An appointment is made** by a start for a context that the registry can throttle. -/
theorem Does.minding_start {Any : Script → Prop} {name : String} {ctx : String}
    {r : LimiterRegistry} {context : Nat} {target : RateContext Script} {reply : Reply}
    {h h₁ : Host Script} (hdoes : Does h (.registryStart name ctx) reply h₁)
    (hctx : h.state.contexts.number? ctx = some context)
    (hT : Throttleable h name r context target) (hC : Chaining Any [] h)
    (hK : Minding ThrottlingScript none (fun _ => False) h) :
    (h₁.queue.now = h.queue.now ∧ h₁.state.events = h.state.events) ∧
      ∃ number, keptBy h₁.state.registries name target.id = some number ∧
        Minding ThrottlingScript none (· = appointment h name r context target number) h₁ := by
  obtain ⟨fuel, hon⟩ := hdoes
  cases fuel with
  | zero => cases hon
  | succ fuel =>
    have hlast : h.state.contexts.lastNumber? ctx = some context := by
      unfold Roster.lastNumber?
      rw [hctx]
      rfl
    refine Ends.of_on (E := fun _ _ => True) (Q := fun _ h₁ =>
      (h₁.queue.now = h.queue.now ∧ h₁.state.events = h.state.events) ∧
        ∃ number, keptBy h₁.state.registries name target.id = some number ∧
          Minding ThrottlingScript none (· = appointment h name r context target number) h₁) ?_ hon
    unfold exec
    rw [perform, ends_bind, ends_residents, hT.registry, hlast]
    dsimp only
    rw [ends_bind]
    exact ends_registryStart_made hT hC hK

/-- **What a registry starts takes effect.** Take a run of throttling steps on a new host, none of
which faults, and let a registry be able to throttle a context then that has a name. The registry
is asked to start, and so keeps a limiter under the number of the context. Throttling steps follow
in any order, and at last an advance by which the clock reads an interval more than at the start.
If the registry still keeps the limiter then, its gate is open, and context and client have their
names, the context was made to wait in the meantime, and the registry answers that it is
active. -/
theorem Run.registry_start_takes_effect {runner : String} {platform : Platform}
    {steps : List Step} {h h₁ : Host Script} (hsteps : ∀ step ∈ steps, Throttling step)
    (hrun : Run (Host.new runner platform) steps h) {name ctx : String} {r : LimiterRegistry}
    {context : Nat} {target : RateContext Script} {reply : Reply}
    (hctx : h.state.contexts.number? ctx = some context)
    (hT : Throttleable h name r context target)
    (hstart : Does h (.registryStart name ctx) reply h₁) :
    ∃ number, keptBy h₁.state.registries name target.id = some number ∧
      ∀ {before : List Step} {span : Nanos} {h' : Host Script},
        (∀ step ∈ before, Throttling step) → Run h₁ (before ++ [.advance span]) h' →
        h₁.queue.now + r.interval ≤ h'.queue.now →
        keptBy h'.state.registries name target.id = some number →
        (h'.state.proxies.get? r.proxy).map Proxy.shutDown = some false →
        h'.state.contexts.isNamed context = true →
        h'.state.clients.isNamed r.client = true →
        h₁.waited target.name < h'.waited target.name ∧
          (h'.state.registries.find? name).map (Host.registryIsActive h'.state · target.id)
            = some true := by
  obtain ⟨⟨hnow, hevents⟩, number, hkept, hK₁⟩ := hstart.minding_start hctx hT
    (Run.chaining hsteps hrun) (hrun.minding hsteps (minding_new runner platform))
  refine ⟨number, hkept, fun {before span h'} hbefore hcourse hlate hkept' hgate hcontext
    hclient => ?_⟩
  obtain ⟨h₂, hbefore', hrest⟩ := run_append.1 hcourse
  cases hrest with
  | cons hadvance hnil =>
    cases hnil
    obtain ⟨hK', hlater⟩ := hadvance.minding_advance (hbefore'.minding hbefore hK₁)
    have hS : (appointment h name r context target number).Stands h'.state :=
      ⟨hkept', hgate, hcontext, hclient⟩
    rw [hnow] at hlate
    obtain ⟨hwaited, hactive⟩ := hK'.waited_lt hS fun q hq =>
      Nat.lt_of_le_of_lt hlate (hlater q hq)
    have hsame : h₁.waited target.name = h.waited target.name :=
      congrArg (List.countP _) hevents
    obtain ⟨r', hr', hn⟩ := keptBy_eq_some.1 hkept'
    refine ⟨hsame ▸ hwaited, ?_⟩
    rw [hr', Option.map_some]
    unfold Host.registryIsActive
    rw [hn]
    exact congrArg some hactive

/-- A context is throttled through a registry, and goes away. -/
def departure : List Step :=
  [.newProxy "io", .newClient "ui" [], .newRegistry "all" "io" "ui" 16, .newContext "old" 5 [],
    .registryStart "all" "old", .dropContext "old"]

/-- A host on which another context of the same number came after one that went away, with the
limiter of the one before. -/
def succession (l : Limiter) (queue : TaskQueue (Compositor.Task Script)) : Host Script where
  queue
  state :=
    { proxies := ⟨[{}], ⟨[("io", 0)]⟩, ∅⟩
      contexts := ⟨[⟨"old", 5, []⟩, ⟨"new", 5, []⟩], ⟨[("new", 1)]⟩, ⟨[("old", 0)]⟩⟩
      clients := ⟨[⟨"ui", []⟩], ⟨[("ui", 0)]⟩, ∅⟩
      limiters := ⟨[l], ∅, ∅⟩
      registries := ⟨[("all", ⟨0, 0, 16, ⟨[(5, 0)]⟩, false⟩)]⟩ }

/-- The registry can be given the context that came after. -/
theorem receptive_succession (l : Limiter) (queue : TaskQueue (Compositor.Task Script)) :
    Receptive (succession l queue) "all" ⟨0, 0, 16, ⟨[(5, 0)]⟩, false⟩ 1 ⟨"new", 5, []⟩ where
  registry := rfl
  ready := rfl
  gate := rfl
  client := rfl
  found := rfl
  alone {n c} hnamed _ _ := by
    have hmem : n ∈ [1] := List.contains_iff_mem.1 hnamed
    exact List.mem_singleton.1 hmem

/-- If the limiter has found out that its context is gone, the other one is throttled: by the
check at the start and by the one an interval later, whatever is started again in between. -/
theorem Run.registry_start_takes_effect_successor :
    ∃ h₁ h' reply,
      Run (Host.new "main" .desktop) (departure ++ [.advance 0, .newContext "new" 5 []])
        (succession ⟨5, 0, 16, .stopped, none⟩ { next := 1 }) ∧
      Does (succession ⟨5, 0, 16, .stopped, none⟩ { next := 1 }) (.registryStart "all" "new")
        reply h₁ ∧
      Run h₁ ([.advance 5, .registryStart "all" "new"] ++ [.advance 11]) h' ∧
      h₁.waited "new" < h'.waited "new" ∧
      (h'.state.registries.find? "all").map (Host.registryIsActive h'.state · 5) = some true := by
  have hafter : after? 12 (departure ++ [.advance 0, .newContext "new" 5 []])
      (Host.new "main" .desktop) = some (succession ⟨5, 0, 16, .stopped, none⟩ { next := 1 }) := rfl
  have hrun := Run.of_after? hafter
  have hsteps : ∀ step ∈ departure ++ [.advance 0, .newContext "new" 5 []], Throttling step := by
    unfold departure
    simp only [List.forall_mem_append, List.forall_mem_cons]
    exact ⟨⟨.newProxy _, .newClient _ (List.forall_mem_nil _), .newRegistry _ _ _ _,
      .newContext _ _ (List.forall_mem_nil _), .registryStart _ _, .dropContext _,
      List.forall_mem_nil _⟩, .advance _, .newContext _ _ (List.forall_mem_nil _),
      List.forall_mem_nil _⟩
  have hbefore : ∀ step ∈ [Step.advance 5, .registryStart "all" "new"], Throttling step := by
    simp only [List.forall_mem_cons]
    exact ⟨.advance _, .registryStart _ _, List.forall_mem_nil _⟩
  have hnamed : (succession ⟨5, 0, 16, .stopped, none⟩ { next := 1 }).state.contexts.number? "new"
      = some 1 := rfl
  have hT : Throttleable (succession ⟨5, 0, 16, .stopped, none⟩ { next := 1 }) "all"
      ⟨0, 0, 16, ⟨[(5, 0)]⟩, false⟩ 1 ⟨"new", 5, []⟩ :=
    { receptive_succession _ _ with
      known := fun {n l t} hn hl ht => by
        cases hn
        cases hl
        cases ht
      prompt := nofun }
  obtain ⟨h₁, hfirst, hkept₁, hnow₁, hlast⟩ := Run.exists_of_after? 12
    [.registryStart "all" "new"]
    (P := fun h₁ => keptBy h₁.state.registries "all" 5 = some 1 ∧ h₁.queue.now = 0 ∧
      (after? 12 ([.advance 5, .registryStart "all" "new"] ++ [.advance 11]) h₁).map (fun h' =>
        decide (h'.queue.now = 16 ∧ keptBy h'.state.registries "all" 5 = some 1 ∧
          (h'.state.proxies.get? 0).map Proxy.shutDown = some false ∧
          h'.state.contexts.isNamed 1 = true ∧ h'.state.clients.isNamed 0 = true)) = some true)
    (h := succession ⟨5, 0, 16, .stopped, none⟩ { next := 1 }) (by decide +kernel)
  obtain ⟨h', hcourse, hnow, hkept, hgate, hcontext, hclient⟩ := Run.exists_of_after? _ _ hlast
  cases hfirst with
  | cons hstart hnil =>
    cases hnil
    obtain ⟨number, hnumber, heffect⟩ :=
      Run.registry_start_takes_effect hsteps hrun hnamed hT hstart
    obtain rfl := Option.some.inj (hkept₁.symm.trans hnumber)
    have hlate : h₁.queue.now + 16 ≤ h'.queue.now := by rw [hnow₁, hnow]
    exact ⟨h₁, h', _, hrun, hstart, hcourse,
      heffect hbefore hcourse hlate hkept hgate hcontext hclient⟩

/-- **If it has not, nothing comes of the start.** The limiter of the context that is gone counts
as one that was started. Its check stops it, so that an interval later the other context has not
been made to wait, and the registry answers that it is not active. -/
theorem registry_start_of_successor_lost :
    ∃ h h₁ h' reply,
      Run (Host.new "main" .desktop) (departure ++ [.newContext "new" 5 []]) h ∧
      h.state.contexts.number? "new" = some 1 ∧
      Receptive h "all" ⟨0, 0, 16, ⟨[(5, 0)]⟩, false⟩ 1 ⟨"new", 5, []⟩ ∧
      Does h (.registryStart "all" "new") reply h₁ ∧ Run h₁ [.advance 16] h' ∧
      h₁.queue.now + 16 = h'.queue.now ∧
      keptBy h₁.state.registries "all" 5 = keptBy h'.state.registries "all" 5 ∧
      (h'.state.proxies.get? 0).map Proxy.shutDown = some false ∧
      h'.state.contexts.isNamed 1 = true ∧ h'.state.clients.isNamed 0 = true ∧
      h₁.waited "new" = h'.waited "new" ∧
      (h'.state.registries.find? "all").map (Host.registryIsActive h'.state · 5)
        = some false := by
  have hafter : after? 12 (departure ++ [.newContext "new" 5 []]) (Host.new "main" .desktop)
      = some (succession ⟨5, 0, 16, .active, some ⟨0, 0⟩⟩
        { next := 1, pending := [⟨0, 0, .proxied 0 (.check 0)⟩] }) := rfl
  obtain ⟨h₁, hfirst, hlast⟩ := Run.exists_of_after? 12
    [.registryStart "all" "new"]
    (P := fun h₁ => (after? 12 [.advance 16] h₁).map (fun h' =>
      decide (h₁.queue.now + 16 = h'.queue.now ∧
        keptBy h₁.state.registries "all" 5 = keptBy h'.state.registries "all" 5 ∧
        (h'.state.proxies.get? 0).map Proxy.shutDown = some false ∧
        h'.state.contexts.isNamed 1 = true ∧ h'.state.clients.isNamed 0 = true ∧
        h₁.waited "new" = h'.waited "new" ∧
        (h'.state.registries.find? "all").map (Host.registryIsActive h'.state · 5)
          = some false)) = some true)
    (h := succession ⟨5, 0, 16, .active, some ⟨0, 0⟩⟩
      { next := 1, pending := [⟨0, 0, .proxied 0 (.check 0)⟩] }) (by decide +kernel)
  obtain ⟨h', hcourse, hend⟩ := Run.exists_of_after? _ _ hlast
  cases hfirst with
  | cons hstart hnil =>
    cases hnil
    exact ⟨_, h₁, h', _, Run.of_after? hafter, rfl, receptive_succession _ _, hstart, hcourse, hend⟩

end Compositor.Step
