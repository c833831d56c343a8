import Compositor.Proofs.Task.History

/-!
# Order, timeliness and conservation

What a history says of its queue does not depend on how the loop was pumped. Every task that
was accepted waits, was run or was dropped – and only one of these, because no two tasks have
the same number. No task waits that was due before the clock. A task is run when the clock
reads the time of its post plus its delay. And the tasks are run in one order over the whole
history, by due time and then by number, across pumps and jumps of the clock.

The order over the whole history needs a comparison between what was run and what waits: each
task that was run precedes each task that waits. A new task keeps this up because nothing that
was run was due after the clock, and because the number of the new task is the largest.
-/

namespace Compositor

namespace EventLoop

variable {τ σ : Type} {hs ks : History τ} {q q' : TaskQueue τ}

/-- **A history explains a queue**: it conserves tasks, it is on time, and it is in order, up to
what waits. -/
structure Explains (hs : History τ) (q : TaskQueue τ) : Prop where
  inTime : q.InTime
  numbers : hs.accepted.map Pending.number = List.range q.next
  conserved : hs.accepted.Perm (q.pending ++ hs.ran ++ hs.dropped)
  /-- A task is due when its delay is over. -/
  due {now delay : Nanos} {p : Pending τ} (h : .accepted now delay p ∈ hs) : p.due = now + delay
  /-- A task is run when it is due. -/
  punctual {now : Nanos} {p : Pending τ} (h : .ran now p ∈ hs) : now = p.due
  ordered : hs.ran.Pairwise Pending.Precedes
  /-- What was run precedes what waits. -/
  before {p r : Pending τ} (hp : p ∈ hs.ran) (hr : r ∈ q.pending) : p.Precedes r
  /-- What was run was not due after the clock, and has a number that was given. -/
  past {p : Pending τ} (hp : p ∈ hs.ran) : p.due ≤ q.now ∧ p.number < q.next

namespace Explains

theorem start : Explains [] ({} : TaskQueue τ) where
  inTime := TaskQueue.inTime_empty
  numbers := rfl
  conserved := .refl _
  due := nofun
  punctual := nofun
  ordered := .nil
  before := nofun
  past := nofun

/-- A task that was run was accepted, and it was run when its delay was over. -/
theorem on_time (h : Explains hs q) {now : Nanos} {p : Pending τ} (hran : .ran now p ∈ hs) :
    ∃ posted delay, .accepted posted delay p ∈ hs ∧ now = posted + delay := by
  have hmem : p ∈ hs.ran := List.mem_filterMap.2 ⟨_, hran, rfl⟩
  have haccepted : p ∈ hs.accepted := h.conserved.mem_iff.2 (by simp [hmem])
  obtain ⟨happening, hhappening, heq⟩ := List.mem_filterMap.1 haccepted
  cases happening with
  | accepted posted delay r =>
    cases heq
    exact ⟨posted, delay, hhappening, (h.punctual hran).trans (h.due hhappening)⟩
  | ran | dropped => cases heq

/-! ## Posting and dropping -/

theorem accept (h : Explains hs q) (task : τ) (delay : Nanos) :
    Explains (hs ++ [.accepted q.now delay (q.posted task delay)]) (q.accept task delay) where
  inTime := h.inTime.accept task delay
  numbers := by
    rw [History.accepted_append, List.map_append, h.numbers]
    exact List.range_succ.symm
  conserved := by
    rw [History.accepted_append, History.ran_append, History.dropped_append]
    simp only [History.accepted_accepted, History.ran_accepted, History.dropped_accepted,
      List.append_nil]
    calc (hs.accepted ++ [q.posted task delay]).Perm (q.posted task delay :: hs.accepted) :=
          List.perm_append_singleton ..
      _ |>.Perm (q.posted task delay :: q.pending ++ hs.ran ++ hs.dropped) := h.conserved.cons _
      _ |>.Perm ((q.accept task delay).pending ++ hs.ran ++ hs.dropped) :=
          (((TaskQueue.insert_perm ..).append_right _).append_right _).symm
  due hmem := by
    rcases List.mem_append.1 hmem with hold | hnew
    · exact h.due hold
    · cases List.mem_singleton.1 hnew
      rfl
  punctual hmem := by
    rcases List.mem_append.1 hmem with hold | hnew
    · exact h.punctual hold
    · cases List.mem_singleton.1 hnew
  ordered := by simpa using h.ordered
  before {p _} hp hr := by
    replace hp : p ∈ hs.ran := by simpa using hp
    rcases TaskQueue.mem_pending_accept.1 hr with rfl | hr
    · obtain ⟨hdue, hnumber⟩ := h.past hp
      exact (Nat.lt_or_eq_of_le (Nat.le_trans hdue (Nat.le_add_right _ delay))).imp id
        fun heq => ⟨heq, hnumber⟩
    · exact h.before hp hr
  past {p} hp := by
    replace hp : p ∈ hs.ran := by simpa using hp
    exact ⟨(h.past hp).1, Nat.lt_succ_of_lt (h.past hp).2⟩

theorem clear (h : Explains hs q) : Explains (hs ++ q.pending.map .dropped) q.clear where
  inTime := TaskQueue.inTime_clear q
  numbers := by simpa using h.numbers
  conserved := by
    have hmoved :
        (q.pending ++ (hs.ran ++ hs.dropped)).Perm ((hs.ran ++ hs.dropped) ++ q.pending) :=
      List.perm_append_comm
    simpa using h.conserved.trans (by simpa using hmoved)
  due hmem := h.due (by simpa using hmem)
  punctual hmem := h.punctual (by simpa using hmem)
  ordered := by simpa using h.ordered
  before _ hr := nomatch hr
  past hp := h.past (by simpa using hp)

/-- What a queue is dealt is explained by what its history adds. -/
theorem deals (h : Explains hs q) (hdeals : q.Deals ks q') : Explains (hs ++ ks) q' := by
  induction hdeals generalizing hs with
  | nothing q => rwa [List.append_nil]
  | post task delay hpost _ ih =>
    obtain ⟨-, rfl⟩ := TaskQueue.post_eq_ok hpost
    simpa using ih (h.accept task delay)
  | clear _ ih => simpa using ih h.clear

/-! ## Running -/

/-- The first task may be run: it precedes what waits, and what was run precedes it. -/
theorem take (h : Explains hs q) {p : Pending τ} {rest : List (Pending τ)}
    (hpending : q.pending = p :: rest) :
    Explains (hs ++ [.ran (q.without p rest).now p]) (q.without p rest) where
  inTime := h.inTime.without hpending
  numbers := by simpa using h.numbers
  conserved := by
    have hold := h.conserved
    rw [hpending] at hold
    have hmoved : (p :: (rest ++ hs.ran ++ hs.dropped)).Perm
        (rest ++ hs.ran ++ p :: hs.dropped) := List.perm_middle.symm
    simpa using hold.trans hmoved
  due hmem := h.due (by simpa using hmem)
  punctual hmem := by
    rcases List.mem_append.1 hmem with hold | hnew
    · exact h.punctual hold
    · cases List.mem_singleton.1 hnew
      exact h.inTime.now_without hpending
  ordered := by
    rw [History.ran_append, List.pairwise_append]
    refine ⟨h.ordered, List.pairwise_singleton _ _, fun r hr s hs => ?_⟩
    cases List.mem_singleton.1 hs
    exact h.before hr (hpending ▸ List.mem_cons_self ..)
  before hr hs := by
    rcases List.mem_append.1 (History.ran_append .. ▸ hr) with hr | hnew
    · exact h.before hr (hpending ▸ List.mem_cons_of_mem _ hs)
    · cases List.mem_singleton.1 hnew
      exact h.inTime.precedes_of_mem hpending hs
  past hr := by
    rcases List.mem_append.1 (History.ran_append .. ▸ hr) with hr | hnew
    · exact ⟨Nat.le_trans (h.past hr).1 (Nat.le_max_left ..), (h.past hr).2⟩
    · cases List.mem_singleton.1 hnew
      exact ⟨Nat.le_max_right .., h.inTime.numbered (hpending ▸ List.mem_cons_self ..)⟩

/-- The clock may be moved ahead to a time by which nothing is due any more. -/
theorem moved (h : Explains hs q) {deadline : Nanos} (hnone : q.popDue deadline = none)
    (hahead : q.now ≤ deadline) : Explains hs { q with now := deadline } :=
  { h with
    inTime := h.inTime.moved hnone
    past := fun hp => ⟨Nat.le_trans (h.past hp).1 hahead, (h.past hp).2⟩ }

end Explains

/-! ## Turns and operations -/

variable {exec : τ → Act τ σ Unit} {l l' : EventLoop τ σ}

theorem Explains.turn {p : Pending τ} (h : Explains hs l.queue) (hturn : Turn exec l p ks l') :
    Explains (hs ++ ks) l'.queue := by
  cases hturn with
  | take hpending _ hdealt => simpa using (h.take hpending).deals hdealt

theorem Explains.turns {deadline : Nanos} (h : Explains hs l.queue)
    (hturns : Turns exec deadline l ks l') : Explains (hs ++ ks) l'.queue := by
  induction hturns generalizing hs with
  | nothing l => rwa [List.append_nil]
  | turn _ hturn _ ih =>
    rw [← List.append_assoc]
    exact ih (h.turn hturn)

/-- A turn takes the clock to the time that its task was due, if that is ahead. -/
theorem Turn.now_eq {p : Pending τ} (hturn : Turn exec l p ks l') :
    l'.queue.now = max l.queue.now p.due := by
  cases hturn with
  | take _ _ hdealt => exact hdealt.now_eq

/-- Turns up to a deadline do not take the clock beyond it. -/
theorem Turns.now_le {deadline : Nanos} (hturns : Turns exec deadline l ks l')
    (hle : l.queue.now ≤ deadline) : l'.queue.now ≤ deadline := by
  induction hturns with
  | nothing l => exact hle
  | turn hdue hturn _ ih => exact ih (hturn.now_eq ▸ Nat.max_le.2 ⟨hle, hdue⟩)

/-- **Each operation explains what it leaves.** -/
theorem Explains.tells (h : Explains hs l.queue) {op : Operation τ σ}
    (htells : op.Tells exec l ks l') : Explains (hs ++ ks) l'.queue := by
  cases op with
  | post | clear | change => exact h.deals htells
  | runUntilIdle => exact h.turns htells
  | advance span =>
    rcases htells with hturns | ⟨l₁, hturns, hnone, rfl⟩
    · exact h.turns hturns
    · exact (h.turns hturns).moved hnone (hturns.now_le (Nat.le_add_right ..))
  | runNext =>
    rcases htells with ⟨rfl, rfl⟩ | ⟨p, hturn⟩
    · rwa [List.append_nil]
    · exact h.turn hturn

theorem Explains.recounts {ops : List (Operation τ σ)} (h : Explains hs l.queue)
    (hrecounts : Recounts exec l ops ks l') : Explains (hs ++ ks) l'.queue := by
  induction hrecounts generalizing hs with
  | nil l => rwa [List.append_nil]
  | cons _ htells _ ih =>
    rw [← List.append_assoc]
    exact ih (h.tells htells)

/-- **Order, timeliness and conservation.** A loop starts with an empty queue, and its owner
posts, clears the queue, changes the world and pumps as he likes, also if an operation is
halted; the tasks do not pump. Then the run has a history, and whatever history it has: the
accepted tasks are numbered one by one, they are exactly those that wait, that were run and
that were dropped, no task waits that was due before the clock, a task was run when the clock
read the time of its post plus its delay, and the tasks were run in the order of due time and
number. -/
theorem Runs.in_order (hexec : ∀ task, (exec task).Unpumped) {world : σ}
    {ops : List (Operation τ σ)} (hrun : Runs exec ⟨{}, world⟩ ops l) :
    (∃ hs, Recounts exec ⟨{}, world⟩ ops hs l) ∧
      ∀ hs, Recounts exec ⟨{}, world⟩ ops hs l →
        hs.accepted.map Pending.number = List.range l.queue.next ∧
        hs.accepted.Perm (l.queue.pending ++ hs.ran ++ hs.dropped) ∧
        (∀ p ∈ l.queue.pending, l.queue.now ≤ p.due) ∧
        (∀ now p, .ran now p ∈ hs →
          ∃ posted delay, .accepted posted delay p ∈ hs ∧ now = posted + delay) ∧
        hs.ran.Pairwise Pending.Precedes := by
  refine ⟨hrun.exists_recounts hexec, fun hs hrecounts => ?_⟩
  have hexplains : Explains hs l.queue := by simpa using Explains.start.recounts hrecounts
  exact ⟨hexplains.numbers, hexplains.conserved, fun _ hp => hexplains.inTime.notBefore hp,
    fun _ _ hran => hexplains.on_time hran, hexplains.ordered⟩

/-- Tasks that were posted before, on the way and behind one another; one of them is dropped. -/
theorem Runs.in_order_countdown :
    ∃ hs l, Recounts countdown ⟨{}, []⟩
        [.post 1 3, .post 0 8, .advance 4, .post 0 4, .runNext, .runUntilIdle, .post 7 0, .clear]
        hs l ∧
      l.state = [(3, 1), (8, 0), (8, 0), (8, 0)] ∧ l.queue.next = 5 ∧
      hs.accepted.Perm (l.queue.pending ++ hs.ran ++ hs.dropped) ∧
      hs.ran.Pairwise Pending.Precedes := by
  have hrun : Runs countdown ⟨{}, []⟩
      [.post 1 3, .post 0 8, .advance 4, .post 0 4, .runNext, .runUntilIdle, .post 7 0, .clear]
      _ :=
    .cons 0 (.cons 0 (.cons 9 (.cons 0 (.cons 0 (.cons 9 (.cons 0 (.cons 0 (.nil _))))))))
  obtain ⟨⟨hs, hrecounts⟩, hall⟩ := Runs.in_order unpumped_countdown hrun
  obtain ⟨-, hconserved, -, -, hordered⟩ := hall hs hrecounts
  exact ⟨hs, _, hrecounts, by decide +kernel, by decide +kernel, hconserved, hordered⟩

end EventLoop

end Compositor
