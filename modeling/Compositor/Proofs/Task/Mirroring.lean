import Compositor.Proofs.Task.Ends

/-!
# Actions that mirror others

A state may hold more than an action is about: what was noted beside it, say. An action on such a
state *mirrors* one on what can be seen of it if it answers the same and does to what can be seen
what the other does. Whatever is made of mirroring actions mirrors what is made of the others; so
a loop may be pumped with notes beside its world, and whether tasks are run, which ones and when
is as without.
-/

namespace Compositor

namespace Action

variable {σ σ' α β : Type} {view : σ' → σ}

/-- **One action mirrors another**: it answers the same, and does to what can be seen of a state
what the other does to the state. -/
def Mirrors (view : σ' → σ) (a : Action σ' α) (b : Action σ α) (s : σ') : Prop :=
  b.on (view s) = ((a.on s).1, view (a.on s).2)

namespace Mirrors

variable {s : σ'}

theorem pure (x : α) : Mirrors view (Pure.pure x) (Pure.pure x) s := rfl

theorem halt (halt : Halt) : Mirrors view (throw halt : Action σ' α) (throw halt) s := rfl

theorem write {f : σ' → σ'} {g : σ → σ} (hfg : view (f s) = g (view s)) :
    Mirrors view (modify f : Action σ' Unit) (modify g) s :=
  congrArg (Prod.mk (Except.ok ())) hfg.symm

theorem ofExcept (outcome : Except Fault α) :
    Mirrors view (Action.ofExcept outcome) (Action.ofExcept outcome) s := by
  cases outcome <;> rfl

/-- Mirrored actions may be done one after the other. -/
theorem bind {a : Action σ' β} {b : Action σ β} {f : β → Action σ' α} {g : β → Action σ α}
    (ha : Mirrors view a b s) (hf : ∀ x s, Mirrors view (f x) (g x) s) :
    Mirrors view (a >>= f) (b >>= g) s := by
  unfold Mirrors at ha ⊢
  rw [on_bind, on_bind, ha]
  generalize a.on s = ended
  obtain ⟨_ | x, s'⟩ := ended
  · rfl
  · exact hf x s'

/-- What is done may depend on what can be seen. -/
theorem read {f : σ' → Action σ' α} {g : σ → Action σ α}
    (hf : Mirrors view (f s) (g (view s)) s) :
    Mirrors view (get >>= f) (get >>= g) s :=
  hf

/-- What cannot be seen may be done in addition, before an action or after it. -/
theorem before {f : σ' → σ'} {a : Action σ' α} {b : Action σ α} (hf : view (f s) = view s)
    (ha : Mirrors view a b (f s)) : Mirrors view (modify f >>= fun _ => a) b s := by
  unfold Mirrors at ha ⊢
  rw [← hf]
  exact ha

theorem after {f : σ' → σ'} {a : Action σ' Unit} {b : Action σ Unit} (ha : Mirrors view a b s)
    (hf : ∀ s, view (f s) = view s) : Mirrors view (a >>= fun _ => modify f) b s := by
  unfold Mirrors at ha ⊢
  rw [on_bind, ha]
  generalize a.on s = ended
  obtain ⟨_ | x, s'⟩ := ended
  · rfl
  · exact congrArg (Prod.mk (Except.ok ())) (hf s').symm

theorem map {a : Action σ' β} {b : Action σ β} (ha : Mirrors view a b s) (f : β → α) :
    Mirrors view (f <$> a) (f <$> b) s := by
  rw [map_eq_pure_bind, map_eq_pure_bind]
  exact ha.bind fun _ _ => rfl

end Mirrors

end Action

namespace EventLoop

variable {τ σ σ' : Type}

/-- The loop as those see it who see no more of its world than this. -/
def seen (view : σ' → σ) (l : EventLoop τ σ') : EventLoop τ σ := ⟨l.queue, view l.state⟩

open Compositor.Action

variable {view : σ' → σ} {exec' : τ → Act τ σ' Unit} {exec : τ → Act τ σ Unit}
  {l : EventLoop τ σ'}

theorem mirrors_post (task : τ) (delay : Nanos) :
    Mirrors (seen view) (post task delay) (post task delay) l := by
  unfold post
  exact .read <| .bind (.ofExcept _) fun posted l => .bind (.write rfl) fun _ _ => .pure _

variable (hexec : ∀ task l, Mirrors (seen view) (exec' task) (exec task) l)

include hexec

theorem mirrors_runDue (deadline : Nanos) (fuel : Nat) :
    Mirrors (seen view) (runDue exec' deadline fuel) (runDue exec deadline fuel) l := by
  induction fuel generalizing l with
  | zero => exact .halt _
  | succ fuel ih =>
    unfold runDue
    refine .read ?_
    simp only [seen]
    cases l.queue.popDue deadline with
    | none => exact .pure _
    | some popped =>
      exact .bind (.write rfl) fun _ _ => .bind (hexec _ _) fun _ _ => .bind ih fun _ _ => .pure _

theorem mirrors_runUntilIdle (fuel : Nat) :
    Mirrors (seen view) (runUntilIdle exec' fuel) (runUntilIdle exec fuel) l :=
  .read (mirrors_runDue hexec l.queue.now fuel)

theorem mirrors_advance (fuel : Nat) (span : Nanos) :
    Mirrors (seen view) (advance exec' fuel span) (advance exec fuel span) l := by
  unfold advance
  exact .read <| .bind (.ofExcept _) fun target _ => .bind (mirrors_runDue hexec target fuel)
    fun _ _ => .bind (.write rfl) fun _ _ => .pure _

theorem mirrors_runNext :
    Mirrors (seen view) (runNext exec') (runNext exec) l := by
  unfold runNext
  refine .read ?_
  simp only [seen]
  cases l.queue.popNext with
  | none => exact .pure _
  | some popped => exact .bind (.write rfl) fun _ _ => .bind (hexec _ _) fun _ _ => .pure _

end EventLoop

end Compositor
