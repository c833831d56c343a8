import Compositor.Proofs.Task.Queue
import Compositor.Task.Loop

/-!
# How actions end

An action ends in an answer and a state, or it is halted in a state. `Action.Ends`
says what holds at the one end and at the other. Its rules follow an action step by
step, each turning a statement about a composed action into one about its parts, so
that `simp` runs an action symbolically up to the calls it knows no rule for.

`Action.Keeps` is the case that inductions over runs need: a property of the state
that holds before an action holds after it, if the action comes to an answer. Where
something has to be known of a halted action too, `Action.Preserves` says it. Pumping
preserves a property as soon as each task that is taken out does.
-/

namespace Compositor

namespace Action

variable {σ α β : Type}

/-- The action ends in an answer and a state with one property, or it is halted in a
state with the other. -/
def Ends (a : Action σ α) (s : σ) (Q : α → σ → Prop) (E : Halt → σ → Prop) : Prop :=
  match a.on s with
  | (.ok x, s') => Q x s'
  | (.error halt, s') => E halt s'

section Rules

variable {s : σ} {Q : α → σ → Prop} {E : Halt → σ → Prop}

@[simp] theorem ends_pure (x : α) : (pure x : Action σ α).Ends s Q E ↔ Q x s := Iff.rfl

@[simp] theorem ends_throw (halt : Halt) :
    (throw halt : Action σ α).Ends s Q E ↔ E halt s :=
  Iff.rfl

@[simp] theorem ends_get {Q : σ → σ → Prop} : (get : Action σ σ).Ends s Q E ↔ Q s s := Iff.rfl

@[simp] theorem ends_modify {Q : Unit → σ → Prop} (f : σ → σ) :
    (modify f : Action σ Unit).Ends s Q E ↔ Q () (f s) :=
  Iff.rfl

@[simp] theorem ends_ofExcept (outcome : Except Fault α) :
    (ofExcept outcome).Ends s Q E
      ↔ match outcome with
        | .ok x => Q x s
        | .error f => E (.fault f) s := by
  cases outcome <;> exact Iff.rfl

/-- **Actions one after the other.** The second starts where the first one ended. -/
@[simp] theorem ends_bind (a : Action σ β) (f : β → Action σ α) :
    (a >>= f).Ends s Q E ↔ a.Ends s (fun x s' => (f x).Ends s' Q E) E := by
  unfold Ends
  rw [on_bind]
  rcases a.on s with ⟨_ | _, s'⟩ <;> exact Iff.rfl

@[simp] theorem ends_map (a : Action σ β) (f : β → α) :
    (f <$> a).Ends s Q E ↔ a.Ends s (fun x s' => Q (f x) s') E := by
  rw [map_eq_pure_bind, ends_bind]
  exact Iff.rfl

@[simp] theorem ends_around (before after : σ → σ) (a : Action σ α) :
    (around before after a).Ends s Q E
      ↔ a.Ends (before s) (fun x s' => Q x (after s')) (fun halt s' => E halt (after s')) := by
  show (match (around before after a).on s with
    | (.ok x, s') => Q x s'
    | (.error halt, s') => E halt s') ↔ _
  unfold around Ends
  show (match ((a.on (before s)).1, after (a.on (before s)).2) with
    | (.ok x, s') => Q x s'
    | (.error halt, s') => E halt s') ↔ _
  rcases a.on (before s) with ⟨_ | _, s'⟩ <;> exact Iff.rfl

/-- What holds at the ends may be weakened. -/
theorem Ends.imp {a : Action σ α} {Q' : α → σ → Prop} {E' : Halt → σ → Prop}
    (h : a.Ends s Q E) (hQ : ∀ x s', Q x s' → Q' x s') (hE : ∀ halt s', E halt s' → E' halt s') :
    a.Ends s Q' E' := by
  unfold Ends at h ⊢
  cases hon : a.on s with
  | mk outcome s' =>
    rw [hon] at h
    cases outcome with
    | ok x => exact hQ x s' h
    | error halt => exact hE halt s' h

/-- Every action ends somehow. -/
theorem ends_true (a : Action σ α) : a.Ends s (fun _ _ => True) fun _ _ => True := by
  unfold Ends
  split <;> trivial

/-- What holds at the ends holds there together. -/
theorem Ends.and {a : Action σ α} {Q' : α → σ → Prop} {E' : Halt → σ → Prop}
    (h : a.Ends s Q E) (h' : a.Ends s Q' E') :
    a.Ends s (fun x t => Q x t ∧ Q' x t) fun halt t => E halt t ∧ E' halt t := by
  unfold Ends at h h' ⊢
  generalize a.on s = ended at h h' ⊢
  obtain ⟨_ | _, s'⟩ := ended <;> exact ⟨h, h'⟩

/-- What holds at the end is what holds of the answer that an action gave. -/
theorem Ends.of_on {a : Action σ α} {x : α} {s' : σ} (h : a.Ends s Q E)
    (hon : a.on s = (.ok x, s')) : Q x s' := by
  unfold Ends at h
  rw [hon] at h
  exact h

/-- What holds where an action is halted holds of the halt that it came to. -/
theorem Ends.of_on_error {a : Action σ α} {halt : Halt} {s' : σ} (h : a.Ends s Q E)
    (hon : a.on s = (.error halt, s')) : E halt s' := by
  unfold Ends at h
  rw [hon] at h
  exact h

/-- An action ends without being halted if it gives an answer. -/
theorem ends_false_iff {a : Action σ α} :
    a.Ends s Q (fun _ _ => False) ↔ ∃ x s', a.on s = (.ok x, s') ∧ Q x s' := by
  unfold Ends
  rcases a.on s with ⟨halt | x, s'⟩
  · exact ⟨nofun, fun ⟨_, _, hon, _⟩ => nomatch hon⟩
  · refine ⟨fun h => ⟨x, s', rfl, h⟩, ?_⟩
    rintro ⟨_, _, ⟨⟩, h⟩
    exact h

/-- An answer that an action gives is what it ends with. -/
theorem on_eq_ok_iff {a : Action σ α} {x : α} {s' : σ} :
    a.on s = (.ok x, s') ↔ a.Ends s (fun y t => y = x ∧ t = s') fun _ _ => False := by
  rw [ends_false_iff]
  constructor
  · exact fun hon => ⟨x, s', hon, rfl, rfl⟩
  · rintro ⟨_, _, hon, rfl, rfl⟩
    exact hon

/-- Whether an action gives an answer can be found out by running it. -/
theorem on_eq_ok_of_toOption {a : Action σ α} {x : α} (h : (a.on s).1.toOption = some x) :
    a.on s = (.ok x, (a.on s).2) := by
  generalize a.on s = ended at h ⊢
  obtain ⟨halt | y, s'⟩ := ended
  · cases h
  · cases h
    rfl

/-- What holds at either end holds of the state that an action leaves. -/
theorem Ends.state {a : Action σ α} {P : σ → Prop} (h : a.Ends s (fun _ => P) fun _ => P) :
    P (a.on s).2 := by
  unfold Ends at h
  cases hon : a.on s with
  | mk outcome s' =>
    rw [hon] at h
    cases outcome <;> exact h

end Rules

/-! ## What an action preserves -/

/-- **A property of the state is preserved**: if it holds before an action, it holds after
it if the action comes to an answer, and the second property does if it is halted. -/
def Preserves (P E : σ → Prop) (a : Action σ α) : Prop :=
  ∀ s, P s → a.Ends s (fun _ => P) fun _ => E

/-- **A property of the state is kept**: if it holds before an action that comes to an
answer, it holds after it. -/
def Keeps (P : σ → Prop) (a : Action σ α) : Prop :=
  ∀ s, P s → a.Ends s (fun _ s' => P s') (fun _ _ => True)

section Preserving

variable {P E : σ → Prop}

theorem Preserves.pure (x : α) : (Pure.pure x : Action σ α).Preserves P E := fun _ hs => hs

theorem Preserves.halt (hE : ∀ s, P s → E s) (halt : Halt) :
    (throw halt : Action σ α).Preserves P E :=
  hE

theorem Preserves.read : (get : Action σ σ).Preserves P E := fun _ hs => hs

theorem Preserves.write {f : σ → σ} (hf : ∀ s, P s → P (f s)) :
    (modify f : Action σ Unit).Preserves P E :=
  hf

theorem Preserves.ofExcept (hE : ∀ s, P s → E s) (outcome : Except Fault α) :
    (Action.ofExcept outcome).Preserves P E := by
  intro s hs
  rw [ends_ofExcept]
  cases outcome with
  | ok x => exact hs
  | error f => exact hE s hs

/-- What each of two actions preserves is preserved by one after the other. -/
theorem Preserves.bind {a : Action σ β} {f : β → Action σ α} (ha : a.Preserves P E)
    (hf : ∀ x, (f x).Preserves P E) : (a >>= f).Preserves P E := by
  intro s hs
  rw [ends_bind]
  exact (ha s hs).imp (fun x s' hs' => hf x s' hs') fun _ _ hs' => hs'

theorem Preserves.map {a : Action σ β} (ha : a.Preserves P E) (f : β → α) :
    (f <$> a).Preserves P E := by
  intro s hs
  rw [ends_map]
  exact ha s hs

/-- What an action does to a list preserves what it does to each entry. -/
theorem Preserves.forM {γ : Type} {f : γ → Action σ PUnit} {xs : List γ}
    (hf : ∀ x ∈ xs, (f x).Preserves P E) : (xs.forM f).Preserves P E := by
  induction xs with
  | nil => exact Preserves.pure _
  | cons x rest ih =>
    refine Preserves.bind (hf x (List.mem_cons_self ..)) fun _ => ?_
    exact ih fun y hy => hf y (List.mem_cons_of_mem _ hy)

theorem Preserves.around {before after : σ → σ} {a : Action σ α} (ha : a.Preserves P E)
    (hbefore : ∀ s, P s → P (before s)) (hafter : ∀ s, P s → P (after s))
    (hhalted : ∀ s, E s → E (after s)) : (Action.around before after a).Preserves P E := by
  intro s hs
  rw [ends_around]
  exact (ha _ (hbefore s hs)).imp (fun _ s' hs' => hafter s' hs') fun _ s' hs' => hhalted s' hs'

/-- What is preserved is kept. -/
theorem Preserves.keeps {a : Action σ α} (ha : a.Preserves P E) : a.Keeps P := fun s hs =>
  (ha s hs).imp (fun _ _ hs' => hs') fun _ _ _ => trivial

/-- What is kept is preserved, with nothing to say of a halted action. -/
theorem Keeps.preserves {a : Action σ α} (ha : a.Keeps P) : a.Preserves P fun _ => True := ha

end Preserving

section Keeping

variable {P : σ → Prop}

theorem Keeps.pure (x : α) : (Pure.pure x : Action σ α).Keeps P := Preserves.pure x

theorem Keeps.halt (halt : Halt) : (throw halt : Action σ α).Keeps P :=
  Preserves.halt (fun _ _ => trivial) halt

theorem Keeps.write {f : σ → σ} (hf : ∀ s, P s → P (f s)) :
    (modify f : Action σ Unit).Keeps P :=
  Preserves.write hf

theorem Keeps.ofExcept (outcome : Except Fault α) : (Action.ofExcept outcome).Keeps P :=
  Preserves.ofExcept (fun _ _ => trivial) outcome

/-- Two properties that an action keeps it keeps together. -/
theorem Keeps.and {Q : σ → Prop} {a : Action σ α} (hP : a.Keeps P) (hQ : a.Keeps Q) :
    a.Keeps fun s => P s ∧ Q s := by
  rintro s ⟨hs, hs'⟩
  exact ((hP s hs).and (hQ s hs')).imp (fun _ _ h => h) fun _ _ _ => trivial

/-- What each of two actions keeps is kept by one after the other. -/
theorem Keeps.bind {a : Action σ β} {f : β → Action σ α} (ha : a.Keeps P)
    (hf : ∀ x, (f x).Keeps P) : (a >>= f).Keeps P :=
  Preserves.bind ha.preserves fun x => (hf x).preserves

/-- What an action does to a list is kept if it is kept for each entry. -/
theorem Keeps.forM {γ : Type} {f : γ → Action σ PUnit} {xs : List γ}
    (hf : ∀ x ∈ xs, (f x).Keeps P) : (xs.forM f).Keeps P :=
  Preserves.forM fun x hx => (hf x hx).preserves

end Keeping

end Action

/-! ## Pumping -/

namespace EventLoop

variable {τ σ : Type} {P E : EventLoop τ σ → Prop} {exec : τ → Act τ σ Unit}

/-- A property that is preserved by each task that is due, with the task gone from the queue,
holds when all of them were run, and then nothing is due any more. -/
theorem settles_runDue_or (hE : ∀ l, P l → E l) (deadline : Nanos)
    (hexec : ∀ l task queue, P l → l.queue.popDue deadline = some (task, queue) →
      (exec task).Ends { l with queue } (fun _ => P) fun _ => E) (fuel : Nat)
    {l : EventLoop τ σ} (hl : P l) :
    (runDue exec deadline fuel).Ends l (fun _ l' => P l' ∧ l'.queue.popDue deadline = none)
      fun _ => E := by
  induction fuel generalizing l with
  | zero => exact hE l hl
  | succ fuel ih =>
    unfold runDue
    simp only [Action.ends_bind, Action.ends_get]
    cases hpop : l.queue.popDue deadline with
    | none => exact ⟨hl, hpop⟩
    | some popped =>
      obtain ⟨task, queue⟩ := popped
      simp only [Action.ends_bind, Action.ends_modify]
      exact (hexec l task queue hl hpop).imp (fun _ l' hl' => ih hl') fun _ _ hl' => hl'

/-- The same with nothing to say of a halted action. -/
theorem settles_runDue (deadline : Nanos)
    (hexec : ∀ l task queue, P l → l.queue.popDue deadline = some (task, queue) →
      (exec task).Ends { l with queue } (fun _ => P) (fun _ _ => True)) (fuel : Nat)
    {l : EventLoop τ σ} (hl : P l) :
    (runDue exec deadline fuel).Ends l (fun _ l' => P l' ∧ l'.queue.popDue deadline = none)
      fun _ _ => True :=
  settles_runDue_or (fun _ _ => trivial) deadline hexec fuel hl

section Pumps

variable (hE : ∀ l, P l → E l)
  (hexec : ∀ l task queue, P l → l.queue.popNext = some (task, queue) →
    (exec task).Ends { l with queue } (fun _ => P) fun _ => E)

include hexec

/-- What each task preserves, with the task gone from the queue, is preserved by running the next
one. -/
theorem preserves_runNext : (runNext exec).Preserves P E := by
  intro l hl
  unfold runNext
  simp only [Action.ends_bind, Action.ends_get]
  cases hpop : l.queue.popNext with
  | none => exact hl
  | some popped =>
    obtain ⟨task, queue⟩ := popped
    simp only [Action.ends_bind, Action.ends_modify]
    exact hexec l task queue hl hpop

include hE

/-- It is preserved by running all that are due now. -/
theorem preserves_runUntilIdle (fuel : Nat) : (runUntilIdle exec fuel).Preserves P E :=
  .bind .read fun l _ hl => (settles_runDue_or hE l.queue.now (fun l' task queue hl' hpop =>
    hexec l' task queue hl' (TaskQueue.popNext_of_popDue hpop)) fuel hl).imp
    (fun _ _ hsettled => hsettled.1) fun _ _ hl' => hl'

/-- It holds until nothing is due by the time to which the clock is advanced, and moving the clock
to that time may make something else of it. -/
theorem ends_advance_or {Q : EventLoop τ σ → Prop}
    (hclock : ∀ l now, P l → l.queue.popDue now = none → now ≤ longestSpan →
      Q { l with queue := { l.queue with now } }) (fuel : Nat) (span : Nanos)
    {l : EventLoop τ σ} (hl : P l) :
    (advance exec fuel span).Ends l (fun _ => Q) fun _ => E := by
  unfold advance
  simp only [Action.ends_bind, Action.ends_get, Action.ends_ofExcept]
  cases htarget : Nanos.add l.queue.now span with
  | error f => exact hE l hl
  | ok target =>
    obtain ⟨rfl, hformed⟩ := Nanos.add_eq_ok.1 htarget
    refine (settles_runDue_or hE _ (fun l' task queue hl' hpop =>
      hexec l' task queue hl' (TaskQueue.popNext_of_popDue hpop)) fuel hl).imp
      (fun _ l' hsettled => ?_) fun _ _ hl' => hl'
    exact hclock l' _ hsettled.1 hsettled.2 hformed

theorem preserves_advance
    (hclock : ∀ l now, P l → l.queue.popDue now = none → now ≤ longestSpan →
      P { l with queue := { l.queue with now } }) (fuel : Nat) (span : Nanos) :
    (advance exec fuel span).Preserves P E :=
  fun _ hl => ends_advance_or hE hexec hclock fuel span hl

end Pumps

section Keeping

variable (hexec : ∀ l task queue, P l → l.queue.popNext = some (task, queue) →
  (exec task).Ends { l with queue } (fun _ => P) fun _ _ => True)

include hexec

theorem keeps_runNext : (runNext exec).Keeps P := preserves_runNext hexec

theorem keeps_runUntilIdle (fuel : Nat) : (runUntilIdle exec fuel).Keeps P :=
  preserves_runUntilIdle (fun _ _ => trivial) hexec fuel

theorem ends_advance {Q : EventLoop τ σ → Prop}
    (hclock : ∀ l now, P l → l.queue.popDue now = none →
      Q { l with queue := { l.queue with now } }) (fuel : Nat) (span : Nanos)
    {l : EventLoop τ σ} (hl : P l) :
    (advance exec fuel span).Ends l (fun _ => Q) fun _ _ => True :=
  ends_advance_or (fun _ _ => trivial) hexec (fun l now hl hnone _ => hclock l now hl hnone) fuel
    span hl

theorem keeps_advance
    (hclock : ∀ l now, P l → l.queue.popDue now = none →
      P { l with queue := { l.queue with now } }) (fuel : Nat) (span : Nanos) :
    (advance exec fuel span).Keeps P :=
  fun _ hl => ends_advance hexec hclock fuel span hl

end Keeping

end EventLoop

end Compositor
