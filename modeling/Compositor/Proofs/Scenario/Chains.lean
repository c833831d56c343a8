import Compositor.Proofs.Host.Chains
import Compositor.Proofs.Scenario.Lookup
import Compositor.Proofs.Scenario.Run

/-!
# In every run each limiter has one chain of checks

A *throttling* step is about limiters and what they need: it makes or drops them, their gates,
their targets and their registries, starts, stops and throttles, posts, or pumps the runner.
What is called back consists of such steps, too. The steps that are left out here refuse posts
or clear the queue, which would break a chain, or are about something else.
-/

namespace Compositor.Step

open Compositor.Action Host

/-- **A step about limiters**, and so is whatever it has called back. -/
inductive Throttling : Step → Prop where
  | offThread {step : Step} (hstep : Throttling step) : Throttling (.offThread step)
  | runUntilIdle : Throttling .runUntilIdle
  | advance (span : Nanos) : Throttling (.advance span)
  | runNext : Throttling .runNext
  | runnerInfo : Throttling .runnerInfo
  | post (label : String) (delay : Nanos) (proxy : Option String) {script : Script}
    (hscript : ∀ step ∈ script, Throttling step) :
    Throttling (.post label delay .none proxy script)
  | newProxy (name : String) : Throttling (.newProxy name)
  | shutdownProxy (name : String) : Throttling (.shutdownProxy name)
  | dropProxy (name : String) : Throttling (.dropProxy name)
  | newContext (name : String) (id : ContextId) {onWait : Script}
    (hwait : ∀ step ∈ onWait, Throttling step) : Throttling (.newContext name id onWait)
  | dropContext (name : String) : Throttling (.dropContext name)
  | newClient (name : String) {onLimit : Script} (hlimit : ∀ step ∈ onLimit, Throttling step) :
    Throttling (.newClient name onLimit)
  | dropClient (name : String) : Throttling (.dropClient name)
  | newLimiter (name context client proxy : String) (interval : Nanos) :
    Throttling (.newLimiter name context client proxy interval)
  | startLimiter (name : String) : Throttling (.startLimiter name)
  | stopLimiter (name : String) : Throttling (.stopLimiter name)
  | limitNow (name : String) : Throttling (.limitNow name)
  | dropLimiter (name : String) : Throttling (.dropLimiter name)
  | newRegistry (name proxy client : String) (interval : Nanos) :
    Throttling (.newRegistry name proxy client interval)
  | registryStart (name context : String) : Throttling (.registryStart name context)
  | registryStop (name : String) (id : ContextId) : Throttling (.registryStop name id)
  | registryStopAll (name : String) : Throttling (.registryStopAll name)
  | registrySuspend (name : String) (on : Bool) : Throttling (.registrySuspend name on)
  | registryIsActive (name : String) (id : ContextId) : Throttling (.registryIsActive name id)
  | dropRegistry (name : String) : Throttling (.dropRegistry name)

/-- A script of throttling steps. -/
def ThrottlingScript (script : Script) : Prop := ∀ step ∈ script, Throttling step

variable {Good : Script → Prop} {hand : List Nat} {h : Host Script}

theorem indifferent_chaining : Indifferent (Chaining Good hand : Host Script → Prop) where
  onThread _ _ h := h
  inUse _ _ h := h
  groupIds _ _ h := h
  groupHandles _ _ h := h
  snapshots _ _ h := h

/-! ## What an embedder changes -/

section Changes

theorem chaining_newContext (hC : Chaining Good hand h) (name : String) {c : RateContext Script}
    (hc : Good c.onWait) :
    Chaining Good hand { h with state := { h.state with
      contexts := (h.state.contexts.enroll name c).2 } } := by
  obtain ⟨hR, hG, hC⟩ := hC
  refine ⟨{ hR with onWait := fun hother => ?_ }, hG, hC⟩
  rcases (Roster.gains_enroll ..).mem_iff.1 hother with hknown | rfl
  · exact hR.onWait hknown
  · exact hc

theorem chaining_newClient (hC : Chaining Good hand h) (name : String) {c : RateClient Script}
    (hc : Good c.onLimit) :
    Chaining Good hand { h with state := { h.state with
      clients := (h.state.clients.enroll name c).2 } } := by
  obtain ⟨hR, hG, hC⟩ := hC
  refine ⟨{ hR with onLimit := fun hother => ?_ }, hG, hC⟩
  rcases (Roster.gains_enroll ..).mem_iff.1 hother with hknown | rfl
  · exact hR.onLimit hknown
  · exact hc

theorem keeps_newProxy_chaining (name : String) :
    (Host.newProxy name).Keeps (Chaining Good hand : Host Script → Prop) := by
  refine keeps_residents.bind fun r => ?_
  split
  · exact .pure _
  · refine .bind (keeps_change fun h hC => ?_) fun _ => .pure _
    obtain ⟨hR, hG, hC⟩ := hC
    have hgains := Roster.gains_enroll h.state.proxies name {}
    exact ⟨hR, hG.changeProxies (hG.proxyNames.enroll name {}) hgains.length_le,
      hC.addProxy hG hgains⟩

theorem keeps_newLimiter_chaining (name context client proxy : String) (interval : Nanos) :
    (Host.newLimiter name context client proxy interval).Keeps
      (Chaining Good hand : Host Script → Prop) := by
  intro h hC
  unfold Host.newLimiter
  rw [ends_bind, ends_residents]
  split
  · next context client proxy _ _ hproxy =>
    unfold withNamed
    cases h.state.contexts.get? context with
    | none => exact hC
    | some target =>
      exact hC.addLimiter (Roster.gains_enroll ..) (hC.2.1.limiterNames.enroll name
        { id := target.id, proxy, interval, targets := some { context, client } }) rfl
        (hC.2.1.proxyNames.lt_of_lastNumber hproxy)
  · exact hC

theorem keeps_newRegistry_chaining (name proxy client : String) (interval : Nanos) :
    (Host.newRegistry name proxy client interval).Keeps
      (Chaining Good hand : Host Script → Prop) := by
  intro h hC
  unfold Host.newRegistry
  rw [ends_bind, ends_residents]
  split
  · next proxy client hproxy _ =>
    have hgate := hC.2.1.proxyNames.lt_of_lastNumber hproxy
    rw [ends_bind]
    refine ((keeps_dropRegistry_chaining name).and (keeps_dropRegistry_rest
      (P := fun h => proxy < h.state.proxies.members.length) (fun _ _ _ => id) name) h
      ⟨hC, hgate⟩).imp (fun _ h' hdropped => ?_) fun _ _ _ => trivial
    exact hdropped.1.insertRegistry name hdropped.2
  · exact hC

end Changes

/-! ## Every throttling step -/

/-- **Every throttling step keeps the account of checks**, if the throttling scripts that are run
meanwhile do. -/
theorem keeps_perform_chaining {run : Script → Act Script Unit}
    (hrun : ∀ hand script, ThrottlingScript script →
      (run script).Keeps (Chaining ThrottlingScript hand))
    (fuel : Nat) {step : Step} (hstep : Throttling step) :
    (perform run fuel step).Keeps (Chaining ThrottlingScript hand) := by
  have hP : Indifferent (Chaining ThrottlingScript hand) := indifferent_chaining
  induction hstep with
  | offThread _ ih => rw [perform]; exact hP.offThread ih
  | runUntilIdle =>
    rw [perform]
    exact (keeps_runUntilIdle_chaining hrun fuel).bind fun _ => .pure _
  | advance span =>
    rw [perform]
    exact (keeps_advance_chaining hrun fuel span).bind fun _ => .pure _
  | runNext => rw [perform]; exact (keeps_runNext_chaining hrun).bind fun _ => .pure _
  | runnerInfo => rw [perform]; exact keeps_residents.bind fun _ => .pure _
  | post label delay proxy hscript =>
    rw [perform]
    cases proxy with
    | none =>
      exact keeps_post_plain label delay
        (keeps_post_chaining (fun _ => .scripted hscript) (fun _ => rfl) delay)
    | some name =>
      exact keeps_post_gated label delay name fun proxy =>
        keeps_post_chaining (fun _ => .proxied hscript) (fun _ => rfl) delay
  | newProxy name => rw [perform]; exact keeps_newProxy_chaining name
  | shutdownProxy name =>
    rw [perform]
    exact keeps_lookUp fun number => (keeps_shutdownProxy_chaining number).bind fun _ => .pure _
  | dropProxy name =>
    rw [perform]
    refine keeps_residents.bind fun _ => .bind (keeps_change fun h hC => ?_) fun _ => .pure _
    obtain ⟨hR, hG, hC⟩ := hC
    refine ⟨hR, hG.changeProxies (hG.proxyNames.forget name)
        (Roster.length_forget ..).ge, hC.mono (fun _ => id) ?_⟩
    rintro n ⟨l, hl, hactive, hopen⟩
    exact ⟨l, hl, hactive, by rwa [Roster.get?_forget] at hopen⟩
  | newContext name id hwait =>
    rw [perform]
    exact .bind (keeps_change fun _ hC => chaining_newContext hC name hwait) fun _ => .pure _
  | dropContext name =>
    rw [perform]
    refine keeps_residents.bind fun _ => .bind (keeps_change fun h hC => ?_) fun _ => .pure _
    obtain ⟨hR, hG, hC⟩ := hC
    exact ⟨hR.forgetContext name, hG, hC⟩
  | newClient name hlimit =>
    rw [perform]
    exact .bind (keeps_change fun _ hC => chaining_newClient hC name hlimit) fun _ => .pure _
  | dropClient name =>
    rw [perform]
    refine keeps_residents.bind fun _ => .bind (keeps_change fun h hC => ?_) fun _ => .pure _
    obtain ⟨hR, hG, hC⟩ := hC
    exact ⟨hR.forgetClient name, hG, hC⟩
  | newLimiter name context client proxy interval =>
    rw [perform]
    exact keeps_newLimiter_chaining name context client proxy interval
  | startLimiter name =>
    rw [perform]
    exact keeps_lookUp fun number => (keeps_startLimiter_chaining number).bind fun _ => .pure _
  | stopLimiter name =>
    rw [perform]
    exact keeps_lookUp fun number => (keeps_stopLimiter_chaining number).bind fun _ => .pure _
  | limitNow name =>
    rw [perform]
    exact keeps_lookUp fun number => (keeps_limitNow_chaining (hrun hand) number).bind
      fun _ => .pure _
  | dropLimiter name =>
    rw [perform]
    refine keeps_residents.bind fun _ => .bind (keeps_change fun h hC => ?_) fun _ => .pure _
    obtain ⟨hR, hG, hC⟩ := hC
    have hget (n : Nat) : (h.state.limiters.forget name).get? n = h.state.limiters.get? n :=
      Roster.get?_forget ..
    refine ⟨hR.changeLimiters fun n l hl => ⟨l, (hget n).trans hl, rfl⟩,
      { hG with
        limiterNames := hG.limiterNames.forget name
        limiter := fun {n _} hl => hG.limiter ((hget n).symm.trans hl) },
      hC.mono (fun n hn l hl => hn l ((hget n).trans hl)) ?_⟩
    rintro n ⟨l, hl, hrunning⟩
    exact ⟨l, (hget n).symm.trans hl, hrunning⟩
  | newRegistry name proxy client interval =>
    rw [perform]
    exact keeps_newRegistry_chaining name proxy client interval
  | registryStart name context =>
    rw [perform]
    refine keeps_residents.bind fun r => ?_
    split
    · exact (keeps_registryStart_chaining name _).bind fun _ => .pure _
    · exact .pure _
  | registryStop name id =>
    rw [perform]
    exact keeps_lookUp fun _ => (keeps_registryStop_chaining name id).bind fun _ => .pure _
  | registryStopAll name =>
    rw [perform]
    exact keeps_lookUp fun _ => (keeps_registryStopAll_chaining name).bind fun _ => .pure _
  | registrySuspend name on =>
    rw [perform]
    intro h hC
    rw [ends_bind, ends_residents]
    cases hregistry : h.state.registries.find? name with
    | none => exact hC
    | some registry =>
      have hgate := hC.2.1.registry hregistry
      exact hC.insertRegistry name (r := { registry with suspended := on }) hgate
  | registryIsActive name id =>
    rw [perform]
    exact keeps_residents.bind fun _ => keeps_withNamed _ fun _ => .pure _
  | dropRegistry name =>
    rw [perform]
    exact keeps_residents.bind fun _ => (keeps_dropRegistry_chaining name).bind fun _ => .pure _

/-- The same for steps within steps, whatever the fuel. -/
theorem keeps_exec_chaining (fuel : Nat) {step : Step} (hstep : Throttling step)
    (hand : List Nat) : (exec fuel step).Keeps (Chaining ThrottlingScript hand) := by
  induction fuel generalizing step hand with
  | zero => exact .halt _
  | succ fuel ih =>
    refine keeps_perform_chaining (fun hand script hscript => ?_) fuel hstep
    exact .forM fun inner hinner => (ih (hscript inner hinner) hand).bind fun _ _ hC => hC

/-! ## Over whole runs -/

/-- There are no limiters on a new host, and nothing waits there. -/
theorem chaining_new (runner : String) (platform : Platform) :
    Chaining Good [] (Host.new runner platform : Host Script) := by
  have hnone (n : Nat) : (Roster.get? ({} : Roster Limiter) n) = none := rfl
  refine ⟨⟨rfl, TaskQueue.inTime_empty, nofun, nofun, nofun⟩, ⟨.empty, .empty, nofun, nofun⟩,
    fun n => Nat.zero_le 1, fun _ => rfl, ?_⟩
  rintro n ⟨l, hl, -⟩
  cases hl

/-- **One chain of checks.** In every run of throttling steps on a new host, none of which
faults, each limiter has one check in the queue at most, and one exactly if it is active and can
still post. -/
theorem Run.chaining {runner : String} {platform : Platform} {steps : List Step}
    {h : Host Script} (hsteps : ∀ step ∈ steps, Throttling step)
    (hrun : Run (Host.new runner platform) steps h) : Chaining ThrottlingScript [] h :=
  hrun.keeps (chaining_new runner platform) fun step hstep fuel =>
    keeps_exec_chaining fuel (hsteps step hstep) []

end Compositor.Step
