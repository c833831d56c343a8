import Compositor.Proofs.Host.Pacing
import Compositor.Proofs.Scenario.Chains

/-!
# In every run limiters keep their pace

A *calm* step leaves the clock alone and makes no new objects: it starts and stops limiters,
throttles at once, gives up targets, shuts gates, posts, or runs what is due already. What is
called back has to be calm. On the top, steps may move the clock ahead as well.

Calls to throttle at once are counted by the steps that make them. Those on the top are there
to be seen; those in scripts leave notes.
-/

namespace Compositor.Step

open Compositor.Action Host

/-- **A step that leaves the clock alone** and makes no new objects, and so does what it has called
back. -/
inductive Calm : Step → Prop where
  | offThread {step : Step} (hstep : Calm step) : Calm (.offThread step)
  | runUntilIdle : Calm .runUntilIdle
  | runnerInfo : Calm .runnerInfo
  | post (label : String) (delay : Nanos) (proxy : Option String) {script : Script}
    (hscript : ∀ step ∈ script, Calm step) : Calm (.post label delay .none proxy script)
  | shutdownProxy (name : String) : Calm (.shutdownProxy name)
  | dropProxy (name : String) : Calm (.dropProxy name)
  | dropContext (name : String) : Calm (.dropContext name)
  | dropClient (name : String) : Calm (.dropClient name)
  | startLimiter (name : String) : Calm (.startLimiter name)
  | stopLimiter (name : String) : Calm (.stopLimiter name)
  | limitNow (name : String) : Calm (.limitNow name)

/-- A script of calm steps. -/
def CalmScript (script : Script) : Prop := ∀ step ∈ script, Calm step

/-- A calm step, or one that moves the clock ahead. -/
inductive Driving : Step → Prop where
  | calm {step : Step} (hstep : Calm step) : Driving step
  | advance (span : Nanos) : Driving (.advance span)
  | runNext : Driving .runNext
  | offThread {step : Step} (hstep : Driving step) : Driving (.offThread step)

theorem Calm.throttling {step : Step} (hstep : Calm step) : Throttling step := by
  induction hstep with
  | offThread _ ih => exact .offThread ih
  | runUntilIdle => exact .runUntilIdle
  | runnerInfo => exact .runnerInfo
  | post label delay proxy _ ih => exact .post label delay proxy ih
  | shutdownProxy name => exact .shutdownProxy name
  | dropProxy name => exact .dropProxy name
  | dropContext name => exact .dropContext name
  | dropClient name => exact .dropClient name
  | startLimiter name => exact .startLimiter name
  | stopLimiter name => exact .stopLimiter name
  | limitNow name => exact .limitNow name

theorem Driving.throttling {step : Step} (hstep : Driving step) : Throttling step := by
  induction hstep with
  | calm hstep => exact hstep.throttling
  | advance span => exact .advance span
  | runNext => exact .runNext
  | offThread _ ih => exact .offThread ih

/-- Whether the step has the limiter of a name throttle at once. -/
def throttles (name : String) : Step → Bool
  | .offThread step => step.throttles name
  | .limitNow other => other == name
  | _ => false

/-- Whether a part of a script, which is a single step, has the limiter of a name throttle at
once. -/
def isThrottleOf (name : String) (part : Script) : Bool := part.any (throttles name)

variable {w : Watch Script} {late now : Nanos} {inHand : Bool} {calls : Nat} {h : Host Script}

theorem indifferent_pacing {Good : Script → Prop} :
    Indifferent (Pacing Good w late inHand calls now : Host Script → Prop) where
  onThread _ _ h := h
  inUse _ _ h := h
  groupIds _ _ h := h
  groupHandles _ _ h := h
  snapshots _ _ h := h

/-! ## Every calm step -/

section Calm

variable {run : Script → Act Script Unit}
  (hrun : ∀ now inHand calls script, CalmScript script →
    (run script).Keeps (Pacing CalmScript w late inHand calls now))

include hrun

/-- **A step that has the limiter throttle at once** opens a call, and any other one opens none. -/
theorem ends_limitNow_pacing (fuel : Nat) (name : String)
    (hK : Pacing CalmScript w late inHand calls now h) :
    (perform run fuel (.limitNow name)).Ends h
      (fun _ => Pacing CalmScript w late inHand
        (calls + if (Step.limitNow name).throttles w.name then 1 else 0) now)
      fun _ _ => True := by
  have hname := hK.2.2.1.name name
  have hthrottles : (Step.limitNow name).throttles w.name = (name == w.name) := rfl
  rw [perform, ends_bind, ends_residents, hthrottles]
  unfold withNamed
  cases hnumber : h.state.limiters.number? name with
  | none =>
    rw [hnumber] at hname
    have hne : (name == w.name) = false :=
      beq_eq_false_iff_ne.2 fun heq => Option.some_ne_none _ (hname.2 heq).symm
    rw [hne]
    exact hK
  | some number =>
    rw [hnumber] at hname
    dsimp only
    rw [ends_bind]
    by_cases hself : number = w.number
    · subst hself
      rw [if_pos (beq_iff_eq.2 (hname.1 rfl))]
      exact (ends_limitNow_own hrun hK).imp (fun _ _ hlimited => hlimited.1) fun _ _ _ => trivial
    · have hne : ¬ (name == w.name) = true := fun heq =>
        hself (Option.some.inj (hname.2 (beq_iff_eq.1 heq)))
      rw [if_neg hne]
      exact keeps_limitNow_other hrun hself h hK

/-- **Every calm step keeps the pace**, and opens a call if it has the limiter throttle at once. -/
theorem ends_perform_calm (fuel : Nat) {step : Step} (hstep : Calm step)
    (hK : Pacing CalmScript w late inHand calls now h) :
    (perform run fuel step).Ends h
      (fun _ => Pacing CalmScript w late inHand
        (calls + if step.throttles w.name then 1 else 0) now)
      fun _ _ => True := by
  have hP : Indifferent (Pacing CalmScript w late inHand calls now) := indifferent_pacing
  induction hstep generalizing h with
  | offThread _ ih =>
    rw [perform]
    unfold Host.offThread
    rw [ends_bind, ends_residents, ends_around]
    exact ih (h := { h with state := { h.state with onThread := false } }) hK
  | limitNow name => exact ends_limitNow_pacing hrun fuel name hK
  | runUntilIdle =>
    rw [perform]
    exact ((keeps_runUntilIdle_pacing hrun fuel).bind fun _ => .pure _) h hK
  | runnerInfo => rw [perform]; exact hK
  | post label delay proxy hscript =>
    rw [perform]
    cases proxy with
    | none =>
      exact keeps_post_plain label delay
        (keeps_post_pacing (fun _ => .scripted hscript) (fun _ => rfl) delay) h hK
    | some name =>
      exact keeps_post_gated label delay name (fun proxy =>
        keeps_post_pacing (fun _ => .proxied hscript) (fun _ => rfl) delay) h hK
  | shutdownProxy name =>
    rw [perform]
    exact keeps_lookUp (fun number => (keeps_shutdownProxy_pacing number).bind fun _ => .pure _)
      h hK
  | dropProxy name => rw [perform]; exact hK.forgetProxy name
  | dropContext name => rw [perform]; exact hK.forgetContext name
  | dropClient name => rw [perform]; exact hK.forgetClient name
  | startLimiter name =>
    rw [perform]
    exact keeps_lookUp (fun number => (keeps_startLimiter_pacing number).bind fun _ => .pure _)
      h hK
  | stopLimiter name =>
    rw [perform]
    exact keeps_lookUp (fun number => (keeps_stopLimiter_pacing number).bind fun _ => .pure _)
      h hK

/-- **A driving step** keeps the pace as well, and may move the clock. -/
theorem ends_perform_driving (fuel : Nat) {step : Step} (hstep : Driving step)
    (hK : Pacing CalmScript w late false calls now h) :
    (perform run fuel step).Ends h
      (fun _ h' => ∃ now', Pacing CalmScript w late false
        (calls + if step.throttles w.name then 1 else 0) now' h')
      fun _ _ => True := by
  induction hstep generalizing h with
  | calm hstep =>
    exact (ends_perform_calm hrun fuel hstep hK).imp (fun _ _ hK' => ⟨now, hK'⟩)
      fun _ _ _ => trivial
  | advance span =>
    rw [perform, ends_bind]
    exact (ends_advance_pacing hrun fuel span hK).imp
      (fun _ _ hK' => ⟨now + span, hK'.mono (Nat.le_max_left ..)⟩) fun _ _ _ => trivial
  | runNext =>
    rw [perform, ends_bind]
    exact ends_runNext_pacing hrun hK
  | offThread _ ih =>
    rw [perform]
    unfold Host.offThread
    rw [ends_bind, ends_residents, ends_around]
    exact ih (h := { h with state := { h.state with onThread := false } }) hK

end Calm

section Exec

variable (hcall : ∀ step, w.isCall [step] = step.throttles w.name)

include hcall

/-- The same for steps within steps, whatever the fuel. In a script the note of a step closes the
call that the step opened. -/
theorem ends_exec_calm (fuel : Nat) {step : Step} (hstep : Calm step)
    (hK : Pacing CalmScript w late inHand calls now h) :
    (exec fuel step).Ends h
      (fun _ => Pacing CalmScript w late inHand
        (calls + if step.throttles w.name then 1 else 0) now)
      fun _ _ => True := by
  induction fuel generalizing step inHand calls now h with
  | zero => trivial
  | succ fuel ih =>
    refine ends_perform_calm (fun now inHand calls script hscript => ?_) fuel hstep hK
    refine .forM fun inner hinner h hK => ?_
    rw [ends_bind]
    refine (ih (hscript inner hinner) hK).imp (fun reply h' hK' => ?_) fun _ _ _ => trivial
    rw [← hcall] at hK'
    exact hK'.note reply

/-- A script of calm steps, run with some fuel for each. -/
theorem keeps_script_pacing (fuel : Nat) (now : Nanos) (inHand : Bool) (calls : Nat)
    (script : Script) (hscript : CalmScript script) :
    (script.forM fun inner => do note inner (← exec fuel inner) : Act Script PUnit).Keeps
      (Pacing CalmScript w late inHand calls now) := by
  refine .forM fun inner hinner h hK => ?_
  rw [ends_bind]
  refine (ends_exec_calm hcall fuel (hscript inner hinner) hK).imp (fun reply h' hK' => ?_)
    fun _ _ _ => trivial
  rw [← hcall] at hK'
  exact hK'.note reply

/-! ## Over whole runs -/

/-- **Driving steps on the top** keep the pace, and each call is open that one of them makes. -/
theorem Run.pacing {h h' : Host Script} {steps : List Step} (hrun : Run h steps h')
    (hsteps : ∀ step ∈ steps, Driving step)
    (hK : Pacing CalmScript w late false calls now h) :
    ∃ now', Pacing CalmScript w late false (calls + steps.countP (throttles w.name)) now' h' := by
  refine hrun.counts (P := fun calls h => ∃ now, Pacing CalmScript w late false calls now h)
    ⟨now, hK⟩ fun step hstep fuel calls h => ?_
  rintro ⟨now, hK⟩
  cases fuel with
  | zero => trivial
  | succ fuel =>
    exact ends_perform_driving (keeps_script_pacing hcall fuel) fuel (hsteps step hstep) hK

/-- Calm steps do so, too, and leave the clock alone. -/
theorem Run.pacing_calm {h h' : Host Script} {steps : List Step} (hrun : Run h steps h')
    (hsteps : ∀ step ∈ steps, Calm step) (hK : Pacing CalmScript w late false calls now h) :
    Pacing CalmScript w late false (calls + steps.countP (throttles w.name)) now h' :=
  hrun.counts (P := fun calls => Pacing CalmScript w late false calls now) hK
    fun step hstep fuel _ _ => ends_exec_calm hcall fuel (hsteps step hstep)

/-- After an advance the next check is due later than the clock reads. -/
theorem Does.pacing_advance {h h' : Host Script} {span : Nanos} {reply : Reply}
    (hdoes : Does h (.advance span) reply h')
    (hK : Pacing CalmScript w late false calls now h) :
    Pacing CalmScript w (now + span + 1) false calls (now + span) h' := by
  obtain ⟨fuel, hon⟩ := hdoes
  cases fuel with
  | zero => cases hon
  | succ fuel =>
    refine Ends.of_on (E := fun _ _ => True) (Q := fun _ =>
      Pacing CalmScript w (now + span + 1) false calls (now + span)) ?_ hon
    unfold exec
    rw [perform, ends_bind]
    exact (ends_advance_pacing (keeps_script_pacing hcall fuel) fuel span hK).imp
      (fun _ _ hK' => hK'.mono (Nat.le_max_right ..)) fun _ _ _ => trivial

end Exec

/-- A limiter that can be started and watched is started. -/
theorem Does.pacing_start {Any : Script → Prop} {name : String} {number : Nat} {l : Limiter}
    {t : LimiterTargets} {c : RateClient Script} {reply : Reply} {h h' : Host Script}
    (hdoes : Does h (.startLimiter name) reply h') (hC : Chaining Any [] h)
    (hS : Startable CalmScript h name number l t c) (isCall : Script → Bool) :
    Pacing CalmScript (hS.watch isCall) 0 false 0 h.queue.now h' := by
  obtain ⟨fuel, hon⟩ := hdoes
  cases fuel with
  | zero => cases hon
  | succ fuel =>
    refine Ends.of_on (E := fun _ _ => True) (Q := fun _ =>
      Pacing CalmScript (hS.watch isCall) 0 false 0 h.queue.now) ?_ hon
    unfold exec
    rw [perform, ends_bind, ends_residents, hS.named]
    unfold withNamed
    dsimp only
    rw [ends_bind]
    exact hS.ends_startLimiter hC isCall

/-- **One chain of checks, on time.** Take a run of throttling steps on a new host, none of which
faults. Each limiter has one check in the queue at most then, and one exactly if it is active and
can still post.

Let a limiter be idle at its end, whose client is told by no other one, and let what may be called
back be calm. It is started, and driving steps follow in any order, the last of which that moves
the clock being an advance. If at the end the limiter is active, can still post, and has both its
targets, then its client was told once at the start, once for each interval since, and once by
each call to throttle at once, in a script or on the top. -/
theorem Run.one_chain_on_time {runner : String} {platform : Platform} {steps : List Step}
    {h : Host Script} (hsteps : ∀ step ∈ steps, Throttling step)
    (hrun : Run (Host.new runner platform) steps h) :
    (∀ n, checksIn h.queue n ≤ 1 ∧
      (limiterIsActive h.state n = true → checksIn h.queue n = 1)) ∧
    ∀ {name : String} {number : Nat} {l : Limiter} {t : LimiterTargets} {c : RateClient Script}
      {before after : List Step} {span : Nanos} {h' : Host Script},
      Startable CalmScript h name number l t c →
      (∀ step ∈ before, Driving step) → (∀ step ∈ after, Calm step) →
      Run h (.startLimiter name :: before ++ .advance span :: after) h' →
      limiterIsActive h'.state number = true → h'.state.contexts.isNamed t.context = true →
      h'.state.clients.isNamed t.client = true →
      h'.told c.name + h.noted (isThrottleOf name)
        = h.told c.name + (1 + (h'.queue.now - h.queue.now) / l.interval)
          + h'.noted (isThrottleOf name) + (before ++ after).countP (throttles name) := by
  have hC := Run.chaining hsteps hrun
  have hchained := hC.2.2
  refine ⟨fun n => ⟨hchained.single n, fun hactive =>
    hchained.running (limiterIsActive_iff.1 hactive)⟩, ?_⟩
  intro name number l t c before after span h' hS hbefore hafter hcourse hactive hcontext hclient
  have hcall (step : Step) :
      (hS.watch (isThrottleOf name)).isCall [step] = step.throttles name := by
    show isThrottleOf name [step] = _
    simp [isThrottleOf]
  -- the start, the steps up to the last advance, that advance, and what comes after it
  cases hcourse with
  | cons hstart hrest =>
    obtain ⟨h₂, hbefore', hrest⟩ := run_append.1 hrest
    cases hrest with
    | cons hadvance hafter' =>
      obtain ⟨now₂, hK₂⟩ := hbefore'.pacing hcall hbefore
        (hstart.pacing_start hC hS (isThrottleOf name))
      obtain ⟨hnow, -, hW, hT⟩ := hafter'.pacing_calm hcall hafter
        (hadvance.pacing_advance hcall hK₂)
      obtain ⟨checks, hT⟩ := hT (hW.live (limiterIsActive_iff.1 hactive) hcontext hclient)
      have hchecks : checks = 1 + (h'.queue.now - h.queue.now) / l.interval :=
        hT.checks_eq (Nat.lt_of_le_of_lt (Nat.le_of_eq hnow) (Nat.lt_succ_self _))
      have haccount : h'.told c.name + h.noted (isThrottleOf name)
          = h.told c.name + checks + h'.noted (isThrottleOf name)
            + (0 + before.countP (throttles name) + after.countP (throttles name)) := hT.account
      rw [haccount, hchecks, List.countP_append, Nat.zero_add]

/-- Two limiters that have a client each. -/
def stage : List Step :=
  [.newProxy "io", .newContext "canvas" 7 [], .newClient "ui" [], .newClient "spare" [],
    .newLimiter "pace" "canvas" "ui" "io" 10, .newLimiter "other" "canvas" "spare" "io" 3]

/-- The host that comes of it. -/
def staged : Host Script where
  queue := {}
  state :=
    { proxies := ⟨[{}], ⟨[("io", 0)]⟩, ∅⟩
      contexts := ⟨[⟨"canvas", 7, []⟩], ⟨[("canvas", 0)]⟩, ∅⟩
      clients := ⟨[⟨"ui", []⟩, ⟨"spare", []⟩], ⟨[("ui", 0), ("spare", 1)]⟩, ∅⟩
      limiters := ⟨[⟨7, 0, 10, .idle, some ⟨0, 0⟩⟩, ⟨7, 0, 3, .idle, some ⟨0, 1⟩⟩],
        ⟨[("pace", 0), ("other", 1)]⟩, ∅⟩ }

/-- A task throttles at once, and so do two steps on the top; the other limiter is started, and the
limiter itself once more. -/
def performance : List Step :=
  [.post "poke" 25 .none (some "io") [.limitNow "pace"], .advance 4, .startLimiter "other",
    .limitNow "pace", .startLimiter "pace", .advance 17]

theorem run_stage : Run (Host.new "main" .desktop) stage staged := by
  have hafter : after? 3 stage (Host.new "main" .desktop) = some staged := rfl
  exact Run.of_after? hafter

theorem throttling_stage : ∀ step ∈ stage, Throttling step := by
  unfold stage
  simp only [List.forall_mem_cons]
  exact ⟨.newProxy _, .newContext _ _ (List.forall_mem_nil _), .newClient _ (List.forall_mem_nil _),
    .newClient _ (List.forall_mem_nil _), .newLimiter _ _ _ _ _, .newLimiter _ _ _ _ _,
    List.forall_mem_nil _⟩

theorem driving_performance : ∀ step ∈ performance, Driving step := by
  unfold performance
  simp only [List.forall_mem_cons]
  exact ⟨.calm (.post _ _ _ (List.forall_mem_singleton.2 (.limitNow _))), .advance 4,
    .calm (.startLimiter _), .calm (.limitNow _), .calm (.startLimiter _), .advance 17,
    List.forall_mem_nil _⟩

/-- The first limiter can be started and watched. -/
theorem startable_staged :
    Startable CalmScript staged "pace" 0 ⟨7, 0, 10, .idle, some ⟨0, 0⟩⟩ ⟨0, 0⟩ ⟨"ui", []⟩ where
  named := rfl
  limiter := rfl
  idle := rfl
  targets := rfl
  client := rfl
  alone {n l' t' c'} hne hl' ht' hc' := by
    rcases n with _ | _ | n
    · exact absurd rfl hne
    · cases hl'
      cases ht'
      cases hc'
      decide
    · cases hl'
  plain hq := nomatch hq
  onWait {context} hcontext := by
    obtain rfl := List.mem_singleton.1 hcontext
    exact List.forall_mem_nil _
  onLimit {client} hclient := by
    have hnil : ∀ c ∈ staged.state.clients.members, c.onLimit = [] := by
      unfold staged
      simp
    rw [hnil client hclient]
    exact List.forall_mem_nil _

/-- The client is told by the checks at 0, 10, 20 and 30, by the task, and by two steps on the
top. -/
theorem Run.one_chain_on_time_performance :
    ∃ h', Run (Host.new "main" .desktop) stage staged ∧
      Run staged (.startLimiter "pace" :: performance ++ .advance 14 :: [.limitNow "pace"]) h' ∧
      h'.queue.now = 35 ∧ checksIn h'.queue 0 = 1 ∧ h'.told "ui" = 7 := by
  have hend : ((after? 12 (.startLimiter "pace" :: performance ++ .advance 14 ::
      [.limitNow "pace"]) staged).map fun h' => (h'.queue.now, limiterIsActive h'.state 0,
        h'.state.contexts.isNamed 0, h'.state.clients.isNamed 0,
        h'.noted (isThrottleOf "pace"))) = some (35, true, true, true, 1) := by
    decide +kernel
  simp only [Option.map_eq_some_iff, Prod.mk.injEq] at hend
  obtain ⟨h', hcourse, hnow, hactive, hcontext, hclient, hnoted⟩ := hend
  have hcourse := Run.of_after? hcourse
  have hlast (step : Step) (hstep : step ∈ [Step.limitNow "pace"]) : Calm step := by
    rw [List.mem_singleton.1 hstep]
    exact .limitNow "pace"
  -- the whole run is one of throttling steps
  have hall : ∀ step ∈ stage ++ (.startLimiter "pace" :: performance ++ .advance 14 ::
      [.limitNow "pace"]), Throttling step := by
    simp only [List.forall_mem_append, List.forall_mem_cons, List.cons_append]
    exact ⟨throttling_stage, .startLimiter _, fun step hstep =>
      (driving_performance step hstep).throttling, .advance 14, .limitNow _, List.forall_mem_nil _⟩
  have hchains := (Run.one_chain_on_time hall (run_append.2 ⟨staged, run_stage, hcourse⟩)).1
  have htold := (Run.one_chain_on_time throttling_stage run_stage).2 startable_staged
    driving_performance hlast hcourse hactive hcontext hclient
  rw [hnow, hnoted] at htold
  exact ⟨h', run_stage, hcourse, hnow, (hchains 0).2 hactive, htold⟩

end Compositor.Step
