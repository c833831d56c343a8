import Compositor.Proofs.Task.Ends
import Compositor.Scenario.Perform

/-!
# Runs

A run is what an embedder makes of a host step by step, each step coming to an answer.
How much fuel a step was given does not matter to what it answered, so every step has
its own. What every step keeps, every run keeps.

A run ends with the first fault, but an embedder may go on after one. A *course* of steps
does: each step begins on the host that the one before left, whatever came of that. What a
step preserves in either case holds after every course.
-/

namespace Compositor.Step

open Compositor.Action

/-- A step, done to a host, comes to an answer and leaves a host behind. -/
def Does (h : Host Script) (step : Step) (reply : Reply) (h' : Host Script) : Prop :=
  ∃ fuel, (exec fuel step).on h = (.ok reply, h')

/-- One step after the other comes to an answer. -/
inductive Run : Host Script → List Step → Host Script → Prop where
  | nil (h : Host Script) : Run h [] h
  | cons {h h₁ h' : Host Script} {step : Step} {reply : Reply} {steps : List Step} :
      Does h step reply h₁ → Run h₁ steps h' → Run h (step :: steps) h'

/-- What a step keeps holds after it came to an answer. -/
theorem Does.keeps {P : Host Script → Prop} {h h' : Host Script} {step : Step} {reply : Reply}
    (hdoes : Does h step reply h') (hP : P h) (hstep : ∀ fuel, (exec fuel step).Keeps P) :
    P h' := by
  obtain ⟨fuel, hon⟩ := hdoes
  exact (hstep fuel h hP).of_on hon

/-- **What each step of a run keeps holds at its end.** -/
theorem Run.keeps {P : Host Script → Prop} {h h' : Host Script} {steps : List Step}
    (hrun : Run h steps h') (hP : P h)
    (hsteps : ∀ step ∈ steps, ∀ fuel, (exec fuel step).Keeps P) : P h' := by
  induction hrun with
  | nil => exact hP
  | cons hdoes _ ih =>
    exact ih (hdoes.keeps hP (hsteps _ (List.mem_cons_self ..))) fun step hstep =>
      hsteps step (List.mem_cons_of_mem _ hstep)

/-- **What steps count up is counted up by a run**, as many times as there are such steps. -/
theorem Run.counts {P : Nat → Host Script → Prop} {counted : Step → Bool} {h h' : Host Script}
    {steps : List Step} {n : Nat} (hrun : Run h steps h') (hP : P n h)
    (hsteps : ∀ step ∈ steps, ∀ fuel n h, P n h → (exec fuel step).Ends h
      (fun _ => P (n + if counted step then 1 else 0)) fun _ _ => True) :
    P (n + steps.countP counted) h' := by
  induction hrun generalizing n with
  | nil => exact hP
  | cons hdoes _ ih =>
    obtain ⟨fuel, hon⟩ := hdoes
    have hP' := (hsteps _ (List.mem_cons_self ..) fuel n _ hP).of_on hon
    rw [List.countP_cons, Nat.add_comm (List.countP _ _), ← Nat.add_assoc]
    exact ih hP' fun step hstep => hsteps step (List.mem_cons_of_mem _ hstep)

/-- A run of some steps and then others is a run of the one and then a run of the others. -/
theorem run_append {h h' : Host Script} {steps steps' : List Step} :
    Run h (steps ++ steps') h' ↔ ∃ h₁, Run h steps h₁ ∧ Run h₁ steps' h' := by
  constructor
  · intro hrun
    induction steps generalizing h with
    | nil => exact ⟨h, .nil h, hrun⟩
    | cons step rest ih =>
      cases hrun with
      | cons hdoes hrest =>
        obtain ⟨h₁, hfirst, hlast⟩ := ih hrest
        exact ⟨h₁, .cons hdoes hfirst, hlast⟩
  · rintro ⟨h₁, hfirst, hlast⟩
    induction hfirst with
    | nil => exact hlast
    | cons hdoes _ ih => exact .cons hdoes (ih hlast)

/-- The host after some steps, all done with the same fuel, if each comes to an answer. -/
def after? (fuel : Nat) : List Step → Host Script → Option (Host Script)
  | [], h => some h
  | step :: rest, h =>
    match (exec fuel step).on h with
    | (.ok _, h₁) => after? fuel rest h₁
    | (.error _, _) => none

theorem Run.of_after? {fuel : Nat} {steps : List Step} {h h' : Host Script}
    (hafter : after? fuel steps h = some h') : Run h steps h' := by
  induction steps generalizing h with
  | nil =>
    obtain rfl := Option.some.inj hafter
    exact .nil h
  | cons step rest ih =>
    unfold after? at hafter
    split at hafter
    · next reply h₁ hon => exact .cons ⟨fuel, hon⟩ (ih hafter)
    · cases hafter

/-- Steps that come to an answer and lead to what can be decided. -/
theorem Run.exists_of_after? {P : Host Script → Prop} [DecidablePred P] (fuel : Nat)
    (steps : List Step) {h : Host Script}
    (hafter : (after? fuel steps h).map (fun h' => decide (P h')) = some true) :
    ∃ h', Run h steps h' ∧ P h' := by
  obtain ⟨h', hh', hP⟩ := Option.map_eq_some_iff.1 hafter
  exact ⟨h', .of_after? hh', of_decide_eq_true hP⟩

theorem Does.of_after? {fuel : Nat} {step : Step} {h h' : Host Script}
    (hafter : after? fuel [step] h = some h') : ∃ reply, Does h step reply h' := by
  cases Run.of_after? hafter with
  | cons hdoes hrest =>
    cases hrest
    exact ⟨_, hdoes⟩

/-- What a step does with the scripts that it calls back: one inner step after the other, each with
its note. -/
def runScript (fuel : Nat) (script : Script) : Host.Act Script Unit :=
  script.forM fun inner => do note inner (← exec fuel inner)

/-! ## Courses -/

/-- One step after the other, whatever comes of each: an answer, a fault, or no end. -/
inductive Course : Host Script → List Step → Host Script → Prop where
  | nil (h : Host Script) : Course h [] h
  | cons {h h' : Host Script} {step : Step} {steps : List Step} (fuel : Nat) :
      Course ((exec fuel step).on h).2 steps h' → Course h (step :: steps) h'

/-- **What each step of a course preserves holds after it.** -/
theorem Course.preserves_of_mem {P : Host Script → Prop} {h h' : Host Script} {steps : List Step}
    (hcourse : Course h steps h')
    (hsteps : ∀ step ∈ steps, ∀ fuel, (exec fuel step).Preserves P P) (hh : P h) : P h' := by
  induction hcourse with
  | nil => exact hh
  | cons fuel _ ih =>
    refine ih (fun step hstep => hsteps step (List.mem_cons_of_mem _ hstep)) ?_
    exact (hsteps _ (List.mem_cons_self ..) fuel _ hh).state

/-- What every step preserves holds after a course. -/
theorem Course.preserves {P : Host Script → Prop} {h h' : Host Script} {steps : List Step}
    (hcourse : Course h steps h') (hP : ∀ fuel step, (exec fuel step).Preserves P P) (hh : P h) :
    P h' :=
  hcourse.preserves_of_mem (fun step _ fuel => hP fuel step) hh

/-- A run is a course in which each step comes to an answer. -/
theorem Run.course {h h' : Host Script} {steps : List Step} (hrun : Run h steps h') :
    Course h steps h' := by
  induction hrun with
  | nil => exact .nil _
  | cons hdoes _ ih =>
    obtain ⟨fuel, hon⟩ := hdoes
    exact .cons fuel (by rw [hon]; exact ih)

/-- The host after a course, each step done with the same fuel. -/
def endOf (fuel : Nat) (steps : List Step) (h : Host Script) : Host Script :=
  steps.foldl (fun h step => ((exec fuel step).on h).2) h

theorem course_endOf (fuel : Nat) (steps : List Step) (h : Host Script) :
    Course h steps (endOf fuel steps h) := by
  induction steps generalizing h with
  | nil => exact .nil h
  | cons step rest ih => exact .cons fuel (ih _)

end Compositor.Step
