import Compositor.Proofs.Host.Gate
import Compositor.Proofs.Scenario.Lookup
import Compositor.Proofs.Scenario.Run

/-!
# Every task behind a gate is accounted for

A *gating* step posts through the one gate of a host, shuts it, lets go of it, or pumps the
runner, on any thread; the runner may refuse posts meanwhile. What tasks do consists of
such steps, too, so a gate may be shut, posted through and pumped from inside a task.

In every course of gating steps, whatever comes of each, what went on has a chronicle, and
so has every stretch of it. What the observer, the queue and the gate show at the end is
what the chronicle says: each accepted task waits, has begun or was dropped, and the gate
decides which by whether it was shut when the task was reached.
-/

namespace Compositor.Step

open Compositor.Action Host

/-- **A step about a gate**, and so is whatever the tasks do that it posts. -/
inductive Gating : Step → Prop where
  | offThread {step : Step} (hstep : Gating step) : Gating (.offThread step)
  | runUntilIdle : Gating .runUntilIdle
  | advance (span : Nanos) : Gating (.advance span)
  | runNext : Gating .runNext
  | accept (on : Bool) : Gating (.accept on)
  | runnerInfo : Gating .runnerInfo
  | post (label : String) (delay : Nanos) (proxy : String) {script : Script}
    (hscript : ∀ step ∈ script, Gating step) :
    Gating (.post label delay .none (some proxy) script)
  | shutdownProxy (proxy : String) : Gating (.shutdownProxy proxy)
  | dropProxy (proxy : String) : Gating (.dropProxy proxy)

/-- A script of gating steps. -/
def GatingScript (script : Script) : Prop := ∀ step ∈ script, Gating step

variable {base h h' : Host Script}

/-- What went on since another host has a chronicle, and every task does what gating steps do. -/
abbrev Gates (base : Host Script) : Host Script → Prop := Chronicled GatingScript base

theorem indifferent_gates : Indifferent (Gates base) (Gates base) where
  onThread _ onThread hC := hC.change (f := fun r => { r with onThread }) rfl rfl
  inUse _ inUse hC := hC.change (f := fun r => { r with inUse }) rfl rfl
  groupIds _ groupIds hC := hC.change (f := fun r => { r with groupIds }) rfl rfl
  groupHandles _ groupHandles hC := hC.change (f := fun r => { r with groupHandles }) rfl rfl
  snapshots _ snapshots hC := hC.change (f := fun r => { r with snapshots }) rfl rfl
  haltedOnThread _ onThread hC := hC.change (f := fun r => { r with onThread }) rfl rfl
  haltedInUse _ inUse hC := hC.change (f := fun r => { r with inUse }) rfl rfl

/-! ## Every gating step -/

/-- Posting through a gate that is named, if it is there: then it is the only one. -/
theorem preserves_post_gates (label : String) (delay : Nanos) (proxy : String) {script : Script}
    (hscript : GatingScript script) :
    (Host.post label delay .none (some proxy) script).Preserves (Gates base) (Gates base) := by
  intro h hC
  unfold Host.post
  rw [ends_bind, ends_residents]
  unfold withNamed
  cases hnumber : h.state.proxies.lastNumber? proxy with
  | none => exact hC
  | some number =>
    have hlt := hC.1.names.lt_of_lastNumber hnumber
    rw [hC.1.sole] at hlt
    obtain rfl : number = 0 := by omega
    unfold guardTask
    simp only [ends_bind, ends_pure]
    exact preserves_postVia_chronicled label hscript delay h hC

/-- The gate gives up its name, and is still there. -/
theorem preserves_dropProxy_gates (proxy : String) :
    (change fun r => { r with proxies := r.proxies.forget proxy }
      : Act Script Unit).Preserves (Gates base) (Gates base) := by
  refine preserves_change fun h hC => hC.beside ⟨rfl, rfl, ?_, rfl⟩ (hC.1.names.forget proxy) ?_
  · exact Roster.get?_forget ..
  · exact Roster.length_forget ..

/-- **Every gating step goes on with the chronicle**, if the gating scripts that are run
meanwhile do. -/
theorem preserves_perform_gates {run : Script → Act Script Unit}
    (hrun : ∀ script, GatingScript script → (run script).Preserves (Gates base) (Gates base))
    (fuel : Nat) {step : Step} (hstep : Gating step) :
    (perform run fuel step).Preserves (Gates base) (Gates base) := by
  have hpopped := ends_popped_chronicled hrun
  have hqueue (h : Host Script) (queue : TaskQueue (Task Script)) (hC : Gates base h)
      (hpending : queue.pending = h.queue.pending) (hnext : queue.next = h.queue.next) :
      Gates base { h with queue } :=
    hC.beside ⟨hpending, hnext, rfl, rfl⟩ hC.1.names rfl
  induction hstep with
  | offThread _ ih => rw [perform]; exact indifferent_gates.offThread ih
  | runUntilIdle =>
    rw [perform]
    exact (EventLoop.preserves_runUntilIdle (fun _ => id) hpopped fuel).bind fun _ => .pure _
  | advance span =>
    rw [perform]
    refine (EventLoop.preserves_advance (fun _ => id) hpopped (fun l now hC _ _ => ?_) fuel span).bind
      fun _ => .pure _
    exact hqueue l { l.queue with now } hC rfl rfl
  | runNext => rw [perform]; exact (EventLoop.preserves_runNext hpopped).bind fun _ => .pure _
  | accept on =>
    rw [perform]
    refine .bind (.write fun h hC => ?_) fun _ => .pure _
    exact hqueue h { h.queue with accepting := on } hC rfl rfl
  | runnerInfo => rw [perform]; exact preserves_residents.bind fun _ => .pure _
  | post label delay proxy hscript =>
    rw [perform]
    exact preserves_post_gates label delay proxy hscript
  | shutdownProxy proxy =>
    rw [perform]
    exact preserves_lookUp fun number => (preserves_shutdownProxy_chronicled number).bind
      fun _ => .pure _
  | dropProxy proxy =>
    rw [perform]
    exact preserves_residents.bind fun _ => (preserves_dropProxy_gates proxy).bind fun _ => .pure _

/-- The same for steps within steps, whatever the fuel. -/
theorem preserves_exec_gates (fuel : Nat) {step : Step} (hstep : Gating step) :
    (exec fuel step).Preserves (Gates base) (Gates base) := by
  induction fuel generalizing step with
  | zero => exact .halt (fun _ => id) _
  | succ fuel ih =>
    refine preserves_perform_gates (fun script hscript => ?_) fuel hstep
    refine .forM fun inner hinner => (ih (hscript inner hinner)).bind fun reply => ?_
    intro h hC
    exact hC.change (f := fun r => { r with events := .did [inner] reply :: r.events }) rfl rfl

/-! ## The chronicle of a run -/

/-- A stretch that begins with a host has an empty chronicle so far. -/
theorem Gates.fromNow (hC : Gates base h) : Gates h h := ⟨hC.1, [], .nothing h⟩

/-- A course of gating steps goes on with the chronicle. -/
theorem Gates.course {steps : List Step} (hC : Gates base h)
    (hgating : ∀ step ∈ steps, Gating step) (hcourse : Course h steps h') : Gates base h' :=
  hcourse.preserves_of_mem
    (fun step hstep fuel => preserves_exec_gates fuel (hgating step hstep)) hC

/-- A new host that was given a gate. -/
def NewGate (h : Host Script) : Prop :=
  ∃ runner platform name reply, Does (Host.new runner platform) (.newProxy name) reply h

/-- Behind a new gate there is no task yet, and the gate is open. -/
theorem NewGate.gates (hnew : NewGate h) :
    Gates h h ∧ h.queue = {} ∧ h.gate? = some {} ∧ h.ran = [] := by
  obtain ⟨runner, platform, name, reply, fuel, hon⟩ := hnew
  cases fuel with
  | zero => cases hon
  | succ fuel =>
    obtain rfl : { Host.new runner platform with state :=
        { (Host.new runner platform : Host Script).state with
          proxies := (({} : Roster Proxy).enroll name {}).2 } } = h :=
      congrArg Prod.snd hon
    exact ⟨⟨⟨nofun, Roster.Sound.empty.enroll name ({} : Proxy), rfl⟩, [], .nothing _⟩,
      rfl, rfl, rfl⟩

/-- **Every task behind a gate is accounted for**, after every course of gating steps that begins
with the new gate, whatever calls fault.

What went on has a chronicle, of posts that were accepted, bodies that began, tasks that were
dropped and shutdowns that took effect, and every such chronicle balances. So has what goes
on in any later course; and a step of it goes on with the chronicle inside a task, too.
A shutdown takes effect on the runner's own thread if the gate is open, and else it faults
and changes nothing. A gate that is shut stays shut, and no body begins behind it.
A refused task leaves everything as it was. -/
theorem every_task_behind_gate_accounted_for {h₀ : Host Script} {steps : List Step}
    (hnew : NewGate h₀) (hgating : ∀ step ∈ steps, Gating step) (hcourse : Course h₀ steps h) :
    (∃ cs, Passes h₀ cs h) ∧ (∀ cs, Passes h₀ cs h → Balance cs h) ∧
    (∀ later h', (∀ step ∈ later, Gating step) → Course h later h' → ∃ cs, Passes h cs h') ∧
    (∀ cs h', Passes h cs h' → h.gate?.map Proxy.shutDown = some true →
      h'.gate?.map Proxy.shutDown = some true ∧ h'.ran = h.ran) ∧
    (∀ base run fuel step, Gating step →
      (∀ script, GatingScript script → (run script).Preserves (Gates base) (Gates base)) →
      (perform run fuel step).Preserves (Gates base) (Gates base)) ∧
    (∀ (g : Host Script) (p : Proxy), g.gate? = some p →
      (Host.shutdownProxy 0).on g
        = if g.state.onThread then
            if p.shutDown then (.error (.fault .proxyShutdownTwice), g) else (.ok (), g.withShut)
          else (.error (.fault .proxyShutdownOffThread), g)) ∧
    ∀ g : Host Script, g.queue.accepting = false → ∀ task delay,
      (postVia 0 task delay).on g = (.ok false, g) := by
  obtain ⟨hC₀, hqueue, hgate, hran⟩ := hnew.gates
  have hC := hC₀.course hgating hcourse
  refine ⟨hC.2, fun cs hcs => hcs.balance hqueue hgate hran, fun later h' hlater hcourse' =>
    (hC.fromNow.course hlater hcourse').2, fun cs h' hcs hshut => ?_,
    fun base run fuel step hstep hrun => preserves_perform_gates hrun fuel hstep,
    fun g p hp => shutdownProxy_eq hp, fun g hrefuses task delay =>
      postVia_of_refusing hrefuses 0 task delay⟩
  obtain ⟨hstays, hnone⟩ := hcs.of_shut hshut
  exact ⟨hstays, hcs.ran_of_no_begin fun c hc => (hnone c hc).1⟩

/-- Two tasks wait when a third shuts the gate: from inside a task, and only the first attempt
takes effect. -/
def shutFromInside : List Step :=
  [.post "early" 0 .none (some "gate") [], .post "late" 20 .none (some "gate") [],
    .post "shut" 10 .none (some "gate") [.shutdownProxy "gate", .shutdownProxy "gate"],
    .accept false, .post "refused" 0 .none (some "gate") [], .accept true,
    .offThread (.shutdownProxy "gate"), .runUntilIdle, .advance 10,
    .post "after" 0 .none (some "gate") [], .advance 20]

theorem gating_shutFromInside : ∀ step ∈ shutFromInside, Gating step := by
  have hshut : Gating (.shutdownProxy "gate") := .shutdownProxy _
  have hboth : GatingScript [.shutdownProxy "gate", .shutdownProxy "gate"] :=
    List.forall_mem_cons.2 ⟨hshut, List.forall_mem_singleton.2 hshut⟩
  unfold shutFromInside
  simp only [List.forall_mem_cons]
  exact ⟨.post _ _ _ nofun, .post _ _ _ nofun, .post _ _ _ hboth, .accept _, .post _ _ _ nofun,
    .accept _, .offThread hshut, .runUntilIdle, .advance _, .post _ _ _ nofun, .advance _, nofun⟩

/-- Four posts are accepted. One task is done before the gate is shut, one shuts it, and what
waits then and what is posted later is dropped. -/
theorem every_task_behind_gate_accounted_for_shutFromInside :
    ∃ h₀ h cs, NewGate h₀ ∧ Course h₀ shutFromInside h ∧ Passes h₀ cs h ∧ Balance cs h ∧
      h.ran = [("early", 0), ("shut", 10)] ∧ cs.accepted.length = 4 ∧ cs.began.length = 2 ∧
      cs.dropped.length = 2 ∧ cs.shuts = 1 := by
  obtain ⟨h₀, hrun, hlast⟩ := Run.exists_of_after? 9 [.newProxy "gate"]
    (h := Host.new "main" .desktop)
    (P := fun h₀ =>
      (endOf 9 shutFromInside h₀).ran = [("early", 0), ("shut", 10)] ∧
        (endOf 9 shutFromInside h₀).gate? = some { shutDown := true, dropped := 2 } ∧
        (endOf 9 shutFromInside h₀).queue.next = 4 ∧
        (endOf 9 shutFromInside h₀).queue.pending.length = 0)
    (by decide +kernel)
  have hcourse := course_endOf 9 shutFromInside h₀
  generalize endOf 9 shutFromInside h₀ = h at hlast hcourse
  obtain ⟨hran, hgate, hnext, hpending⟩ := hlast
  have hnew : NewGate h₀ := by
    cases hrun with
    | cons hdoes hrest =>
      cases hrest
      exact ⟨_, _, _, _, hdoes⟩
  obtain ⟨⟨cs, hcs⟩, hbalance, -⟩ :=
    every_task_behind_gate_accounted_for hnew gating_shutFromInside hcourse
  have hB := hbalance cs hcs
  obtain ⟨p, hp, hdropped, hshuts⟩ := hB.gate
  obtain rfl := Option.some.inj (hgate.symm.trans hp)
  have hdropped : 2 = cs.dropped.length := hdropped
  have haccepted : cs.accepted.length = 4 := by
    have hlength := congrArg List.length hB.numbers
    rwa [List.length_map, List.length_range, hnext] at hlength
  have hbegan : cs.began.length = 2 := by
    have hlength := hB.conserved.length_eq
    rw [List.length_append, List.length_append, hpending, haccepted, ← hdropped] at hlength
    omega
  exact ⟨h₀, h, cs, hnew, hcourse, hcs, hB, hran, haccepted, hbegan, hdropped.symm, hshuts.symm⟩

end Compositor.Step
