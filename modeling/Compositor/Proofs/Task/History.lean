import Compositor.Proofs.Task.Ends
import Compositor.Proofs.Task.Queue

/-!
# The history of a task queue

A task that a queue accepted is run or dropped, or it still waits. The queue itself does
not remember which: what became of a task shows in nothing but the absence of the task.
So that one can speak of it, this module writes a *history* beside the queue – who was
accepted when and with which delay, who was run and what the clock read then, and who was
dropped.

The history of a task's body is what the body posts and drops; a body that does nothing
else to the queue is *unpumped*, since it leaves the clock to the owner of the loop. The
history of a pump is one *turn* after the other: the first task of the queue is taken out,
and its body adds what it does. A turn belongs to the history also where its task is
halted, and a pump may run out of fuel after any turn; so the states that histories lead to
include those in the middle of a pump.
-/

namespace Compositor

variable {τ σ α β : Type}

/-- What happens to a task of a queue. -/
inductive Happening (τ : Type) where
  /-- It was accepted at a time, to be run after a delay. -/
  | accepted (now delay : Nanos) (task : Pending τ)
  /-- It was run, and the clock read a time. -/
  | ran (now : Nanos) (task : Pending τ)
  /-- It was dropped without being run. -/
  | dropped (task : Pending τ)

namespace Happening

def accepted? : Happening τ → Option (Pending τ)
  | accepted _ _ p => some p
  | _ => none

def ran? : Happening τ → Option (Pending τ)
  | ran _ p => some p
  | _ => none

def dropped? : Happening τ → Option (Pending τ)
  | dropped p => some p
  | _ => none

end Happening

/-- What happened to the tasks of a queue, in order. -/
abbrev History (τ : Type) : Type := List (Happening τ)

namespace History

/-- The tasks that were accepted, in order. -/
def accepted (hs : History τ) : List (Pending τ) := hs.filterMap Happening.accepted?

/-- The tasks that were run, in order. -/
def ran (hs : History τ) : List (Pending τ) := hs.filterMap Happening.ran?

/-- The tasks that were dropped, in order. -/
def dropped (hs : History τ) : List (Pending τ) := hs.filterMap Happening.dropped?

variable (hs ks : History τ) (now delay : Nanos) (p : Pending τ) (ps : List (Pending τ))

@[simp] theorem accepted_append : accepted (hs ++ ks) = accepted hs ++ accepted ks :=
  List.filterMap_append

@[simp] theorem ran_append : ran (hs ++ ks) = ran hs ++ ran ks := List.filterMap_append

@[simp] theorem dropped_append : dropped (hs ++ ks) = dropped hs ++ dropped ks :=
  List.filterMap_append

@[simp] theorem accepted_accepted : accepted [.accepted now delay p] = [p] := rfl

@[simp] theorem accepted_ran : accepted [.ran now p] = [] := rfl

@[simp] theorem accepted_dropped : accepted (ps.map .dropped) = [] := by
  simp [accepted, Function.comp_def, Happening.accepted?]

@[simp] theorem ran_accepted : ran [.accepted now delay p] = [] := rfl

@[simp] theorem ran_ran : ran [.ran now p] = [p] := rfl

@[simp] theorem ran_dropped : ran (ps.map .dropped) = [] := by
  simp [ran, Function.comp_def, Happening.ran?]

@[simp] theorem dropped_accepted : dropped [.accepted now delay p] = [] := rfl

@[simp] theorem dropped_ran : dropped [.ran now p] = [] := rfl

@[simp] theorem dropped_dropped : dropped (ps.map .dropped) = ps := by
  simp [dropped, Function.comp_def, Happening.dropped?]

end History

/-! ## Posting and dropping -/

/-- **What a queue is dealt**: tasks are posted to it and the queue is cleared, but nothing is
run and the clock stands still. A refused post leaves no trace. -/
inductive TaskQueue.Deals : TaskQueue τ → History τ → TaskQueue τ → Prop where
  | nothing (q : TaskQueue τ) : Deals q [] q
  | post {q q₁ q' : TaskQueue τ} {hs : History τ} (task : τ) (delay : Nanos)
      (hpost : q.post task delay = .ok (true, q₁)) (h : Deals q₁ hs q') :
      Deals q (.accepted q.now delay (q.posted task delay) :: hs) q'
  | clear {q q' : TaskQueue τ} {hs : History τ} (h : Deals q.clear hs q') :
      Deals q (q.pending.map .dropped ++ hs) q'

namespace TaskQueue.Deals

theorem trans {q q₁ q' : TaskQueue τ} {hs ks : History τ} (h : q.Deals hs q₁)
    (k : q₁.Deals ks q') : q.Deals (hs ++ ks) q' := by
  induction h with
  | nothing q => exact k
  | post task delay hpost _ ih => exact .post task delay hpost (ih k)
  | clear _ ih => rw [List.append_assoc]; exact .clear (ih k)

/-- Whatever a queue is dealt, its clock stands still. -/
theorem now_eq {q q' : TaskQueue τ} {hs : History τ} (h : q.Deals hs q') : q'.now = q.now := by
  induction h with
  | nothing q => rfl
  | post task delay hpost _ ih =>
    obtain ⟨-, rfl⟩ := post_eq_ok hpost
    exact ih
  | clear _ ih => exact ih

end TaskQueue.Deals

namespace EventLoop

/-! ## Bodies that do not pump -/

/-- **An action does not pump** if all it does to the queue, until it answers or is halted, is
to post tasks and to clear it. What it does to the rest of the loop is not restricted. -/
def Act.Unpumped (a : Act τ σ α) : Prop :=
  ∀ l, a.Ends l (fun _ l' => ∃ hs, l.queue.Deals hs l'.queue)
    fun _ l' => ∃ hs, l.queue.Deals hs l'.queue

namespace Act.Unpumped

theorem pure (x : α) : (Pure.pure x : Act τ σ α).Unpumped := fun l => ⟨[], .nothing l.queue⟩

theorem get : (MonadState.get : Act τ σ (EventLoop τ σ)).Unpumped := fun l =>
  ⟨[], .nothing l.queue⟩

/-- The world may change as it likes. -/
theorem change (f : σ → σ) :
    (modify fun l => { l with state := f l.state } : Act τ σ Unit).Unpumped := fun l =>
  ⟨[], .nothing l.queue⟩

theorem clear : (modify fun l => { l with queue := l.queue.clear } : Act τ σ Unit).Unpumped :=
  fun l => ⟨_, .clear (.nothing l.queue.clear)⟩

theorem post (task : τ) (delay : Nanos) : (EventLoop.post task delay : Act τ σ Bool).Unpumped := by
  intro l
  unfold EventLoop.post
  simp only [Action.ends_bind, Action.ends_get, Action.ends_ofExcept]
  cases hpost : l.queue.post task delay with
  | error f => exact ⟨[], .nothing l.queue⟩
  | ok posted =>
    obtain ⟨accepted, queue⟩ := posted
    cases accepted with
    | true => exact ⟨_, .post task delay hpost (.nothing queue)⟩
    | false =>
      obtain ⟨-, rfl⟩ := TaskQueue.post_eq_ok hpost
      exact ⟨[], .nothing l.queue⟩

theorem bind {a : Act τ σ β} {f : β → Act τ σ α} (ha : a.Unpumped) (hf : ∀ x, (f x).Unpumped) :
    (a >>= f).Unpumped := by
  intro l
  rw [Action.ends_bind]
  refine (ha l).imp (fun x l₁ hfirst => ?_) fun _ _ hhalt => hhalt
  obtain ⟨hs, hdeals⟩ := hfirst
  refine (hf x l₁).imp (fun _ l' hrest => ?_) fun _ l' hrest => ?_ <;>
  · obtain ⟨ks, hdeals'⟩ := hrest
    exact ⟨hs ++ ks, hdeals.trans hdeals'⟩

end Act.Unpumped

/-- A task that logs its number with what the clock reads, and posts the number below with a
delay, down to zero. -/
def countdown (n : Nat) : Act Nat (List (Nanos × Nat)) Unit := do
  let now := (← get).queue.now
  modify fun l => { l with state := l.state ++ [(now, n)] }
  if n = 0 then return () else discard (post (n - 1) 5)

theorem unpumped_countdown (n : Nat) : (countdown n).Unpumped := by
  refine .bind .get fun l => .bind (.change (· ++ [(l.queue.now, n)])) fun _ => ?_
  split
  · exact .pure ()
  · exact .bind (.post (n - 1) 5) fun _ => .pure ()

/-! ## Pumping -/

/-- The loop after its first task was taken out, when the clock reads what the task was due. -/
def taken (l : EventLoop τ σ) (p : Pending τ) (rest : List (Pending τ)) : EventLoop τ σ :=
  { l with queue := l.queue.without p rest }

/-- The loop with its clock set. -/
def setClock (l : EventLoop τ σ) (now : Nanos) : EventLoop τ σ :=
  { l with queue := { l.queue with now } }

/-- **A turn of a loop**: the first task of the queue is taken out and run, and then its body
is done or halted. -/
inductive Turn (exec : τ → Act τ σ Unit) :
    EventLoop τ σ → Pending τ → History τ → EventLoop τ σ → Prop where
  | take {l l' : EventLoop τ σ} {p : Pending τ} {rest : List (Pending τ)} {dealt : History τ}
      (hpending : l.queue.pending = p :: rest)
      (hexec : ((exec p.task).on (l.taken p rest)).2 = l')
      (hdealt : (l.queue.without p rest).Deals dealt l'.queue) :
      Turn exec l p (.ran (l.queue.without p rest).now p :: dealt) l'

/-- One turn after the other, each of a task that is due by a deadline. -/
inductive Turns (exec : τ → Act τ σ Unit) (deadline : Nanos) :
    EventLoop τ σ → History τ → EventLoop τ σ → Prop where
  | nothing (l : EventLoop τ σ) : Turns exec deadline l [] l
  | turn {l l₁ l' : EventLoop τ σ} {p : Pending τ} {hs ks : History τ} (hdue : p.due ≤ deadline)
      (hturn : Turn exec l p hs l₁) (hrest : Turns exec deadline l₁ ks l') :
      Turns exec deadline l (hs ++ ks) l'

section Telling

variable {exec : τ → Act τ σ Unit}

/-- Running the first task is a turn. -/
theorem ends_turn (hexec : ∀ task, (exec task).Unpumped) {l : EventLoop τ σ} {p : Pending τ}
    {rest : List (Pending τ)} (hpending : l.queue.pending = p :: rest) :
    (exec p.task).Ends (l.taken p rest)
      (fun _ l' => ∃ hs, Turn exec l p hs l') fun _ l' => ∃ hs, Turn exec l p hs l' := by
  have hdeals := hexec p.task (l.taken p rest)
  unfold Action.Ends at hdeals ⊢
  cases hon : (exec p.task).on (l.taken p rest) with
  | mk outcome l' =>
    rw [hon] at hdeals
    cases outcome <;>
    · obtain ⟨dealt, hdealt⟩ := hdeals
      exact ⟨_, .take hpending (congrArg Prod.snd hon) hdealt⟩

/-- **Running what is due is one turn after the other**, and when it comes to an answer nothing
is due any more. -/
theorem ends_runDue (hexec : ∀ task, (exec task).Unpumped) (deadline : Nanos) (fuel : Nat)
    (l : EventLoop τ σ) :
    (runDue exec deadline fuel).Ends l
      (fun _ l' => (∃ hs, Turns exec deadline l hs l') ∧ l'.queue.popDue deadline = none)
      fun _ l' => ∃ hs, Turns exec deadline l hs l' := by
  induction fuel generalizing l with
  | zero => exact ⟨[], .nothing l⟩
  | succ fuel ih =>
    unfold runDue
    simp only [Action.ends_bind, Action.ends_get]
    cases hpop : l.queue.popDue deadline with
    | none => exact ⟨⟨[], .nothing l⟩, hpop⟩
    | some popped =>
      obtain ⟨task, queue⟩ := popped
      obtain ⟨p, rest, hpending, hdue, rfl, rfl⟩ := TaskQueue.popDue_eq_some.1 hpop
      simp only [Action.ends_bind, Action.ends_modify]
      refine (ends_turn hexec hpending).imp (fun _ l₁ hturn => ?_) fun _ l₁ hturn => ?_
      · obtain ⟨hs, hturn⟩ := hturn
        refine (ih l₁).imp (fun _ l' hrest => ?_) fun _ l' hrest => ?_
        · obtain ⟨⟨ks, hks⟩, hnone⟩ := hrest
          exact ⟨⟨hs ++ ks, .turn hdue hturn hks⟩, hnone⟩
        · obtain ⟨ks, hks⟩ := hrest
          exact ⟨hs ++ ks, .turn hdue hturn hks⟩
      · obtain ⟨hs, hturn⟩ := hturn
        exact ⟨hs ++ [], .turn hdue hturn (.nothing l₁)⟩

end Telling

/-! ## Runs -/

/-- What the owner of a loop may do. -/
inductive Operation (τ σ : Type) where
  | post (task : τ) (delay : Nanos)
  | clear
  /-- Changes the world that the tasks work on. -/
  | change (f : σ → σ)
  | runUntilIdle
  | advance (span : Nanos)
  | runNext

namespace Operation

/-- Does an operation. -/
def act (exec : τ → Act τ σ Unit) (fuel : Nat) : Operation τ σ → Act τ σ Unit
  | post task delay => discard (EventLoop.post task delay)
  | clear => modify fun l => { l with queue := l.queue.clear }
  | change f => modify fun l => { l with state := f l.state }
  | runUntilIdle => discard (EventLoop.runUntilIdle exec fuel)
  | advance span => discard (EventLoop.advance exec fuel span)
  | runNext => discard (EventLoop.runNext exec)

/-- The history of an operation that leads from one state to another. An advance moves the
clock to its target when nothing is due by then any more, and leaves it alone if it is halted
before. -/
def Tells (exec : τ → Act τ σ Unit) (l : EventLoop τ σ) (hs : History τ)
    (l' : EventLoop τ σ) : Operation τ σ → Prop
  | post .. | clear | change _ => l.queue.Deals hs l'.queue
  | runUntilIdle => Turns exec l.queue.now l hs l'
  | advance span =>
    Turns exec (l.queue.now + span) l hs l' ∨
      ∃ l₁, Turns exec (l.queue.now + span) l hs l₁ ∧
        l₁.queue.popDue (l.queue.now + span) = none ∧
        l' = l₁.setClock (l.queue.now + span)
  | runNext => (hs = [] ∧ l' = l) ∨ ∃ p, Turn exec l p hs l'

variable {exec : τ → Act τ σ Unit}

/-- Every operation has a history, also one that is halted. -/
theorem exists_tells (hexec : ∀ task, (exec task).Unpumped) (fuel : Nat) (l : EventLoop τ σ)
    (op : Operation τ σ) : ∃ hs, op.Tells exec l hs ((op.act exec fuel).on l).2 := by
  apply Action.Ends.state (P := fun l' => ∃ hs, op.Tells exec l hs l')
  cases op with
  | post task delay => exact (Action.ends_map ..).2 (Act.Unpumped.post task delay l)
  | clear => exact Act.Unpumped.clear l
  | change f => exact Act.Unpumped.change f l
  | runUntilIdle =>
    refine (Action.ends_map ..).2 ?_
    unfold EventLoop.runUntilIdle
    simp only [Action.ends_bind, Action.ends_get]
    exact (ends_runDue hexec l.queue.now fuel l).imp (fun _ _ h => h.1) fun _ _ h => h
  | advance span =>
    refine (Action.ends_map ..).2 ?_
    unfold EventLoop.advance
    simp only [Action.ends_bind, Action.ends_get, Action.ends_ofExcept]
    cases htarget : Nanos.add l.queue.now span with
    | error f => exact ⟨[], .inl (.nothing l)⟩
    | ok target =>
      obtain ⟨rfl, -⟩ := Nanos.add_eq_ok.1 htarget
      refine (ends_runDue hexec (l.queue.now + span) fuel l).imp (fun _ l₁ h => ?_)
        fun _ l' h => h.imp fun _ hs => .inl hs
      obtain ⟨⟨hs, hturns⟩, hnone⟩ := h
      exact ⟨hs, .inr ⟨l₁, hturns, hnone, rfl⟩⟩
  | runNext =>
    refine (Action.ends_map ..).2 ?_
    unfold EventLoop.runNext
    simp only [Action.ends_bind, Action.ends_get]
    cases hpop : l.queue.popNext with
    | none => exact ⟨[], .inl ⟨rfl, rfl⟩⟩
    | some popped =>
      obtain ⟨task, queue⟩ := popped
      obtain ⟨p, rest, hpending, rfl, rfl⟩ := TaskQueue.popNext_eq_some.1 hpop
      simp only [Action.ends_bind, Action.ends_modify]
      exact (ends_turn hexec hpending).imp (fun _ _ h => h.imp fun _ hs => .inr ⟨p, hs⟩)
        fun _ _ h => h.imp fun _ hs => .inr ⟨p, hs⟩

end Operation

/-- **One operation after the other**, each on what the one before it left, also if that one
was halted. Each has its own fuel; where that runs out, a pump stops after so many tasks. -/
inductive Runs (exec : τ → Act τ σ Unit) :
    EventLoop τ σ → List (Operation τ σ) → EventLoop τ σ → Prop where
  | nil (l : EventLoop τ σ) : Runs exec l [] l
  | cons {l l' : EventLoop τ σ} {op : Operation τ σ} {ops : List (Operation τ σ)} (fuel : Nat)
      (hrest : Runs exec ((op.act exec fuel).on l).2 ops l') : Runs exec l (op :: ops) l'

/-- A run with its history: what its operations tell, one after the other. -/
inductive Recounts (exec : τ → Act τ σ Unit) :
    EventLoop τ σ → List (Operation τ σ) → History τ → EventLoop τ σ → Prop where
  | nil (l : EventLoop τ σ) : Recounts exec l [] [] l
  | cons {l l' : EventLoop τ σ} {op : Operation τ σ} {ops : List (Operation τ σ)}
      {hs ks : History τ} (fuel : Nat) (htells : op.Tells exec l hs ((op.act exec fuel).on l).2)
      (hrest : Recounts exec ((op.act exec fuel).on l).2 ops ks l') :
      Recounts exec l (op :: ops) (hs ++ ks) l'

/-- Every run has a history. -/
theorem Runs.exists_recounts {exec : τ → Act τ σ Unit} (hexec : ∀ task, (exec task).Unpumped)
    {l l' : EventLoop τ σ} {ops : List (Operation τ σ)} (h : Runs exec l ops l') :
    ∃ hs, Recounts exec l ops hs l' := by
  induction h with
  | nil l => exact ⟨[], .nil l⟩
  | @cons l l' op ops fuel _ ih =>
    obtain ⟨hs, htells⟩ := op.exists_tells hexec fuel l
    obtain ⟨ks, hrest⟩ := ih
    exact ⟨hs ++ ks, .cons fuel htells hrest⟩

end EventLoop

end Compositor
