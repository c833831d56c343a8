import Compositor.Task.Queue

/-!
# Queues that are in time

The owner of a queue moves its clock, but never past a task that waits: a task that is
taken out takes the clock to the time it was due, and the clock is moved ahead only when
nothing is due on the way. So no task waits that was due before the clock, and since a
new task has the largest number of all, the order of service is the order of insertion.

`TaskQueue.InTime` says so of a queue. Each operation on a queue keeps it.
-/

namespace Compositor

variable {τ : Type}

/-- One task is served before another: it is due earlier, or it is due at the same time and
was posted earlier. -/
def Pending.Precedes (p q : Pending τ) : Prop :=
  p.due < q.due ∨ p.due = q.due ∧ p.number < q.number

theorem Pending.Precedes.due_le {p q : Pending τ} (h : p.Precedes q) : p.due ≤ q.due := by
  rcases h with hlt | ⟨heq, -⟩
  · exact Nat.le_of_lt hlt
  · exact Nat.le_of_eq heq

namespace TaskQueue

/-- **A queue is in time**: its tasks wait in the order of service, none was due before the
clock, and each has a number that was given. -/
structure InTime (q : TaskQueue τ) : Prop where
  sorted : q.pending.Pairwise Pending.Precedes
  notBefore {p : Pending τ} (hp : p ∈ q.pending) : q.now ≤ p.due
  numbered {p : Pending τ} (hp : p ∈ q.pending) : p.number < q.next

theorem inTime_empty : ({} : TaskQueue τ).InTime := ⟨.nil, nofun, nofun⟩

/-! ## Posting -/

/-- The task as it waits after it was posted. -/
def posted (q : TaskQueue τ) (task : τ) (delay : Nanos) : Pending τ :=
  ⟨q.now + delay, q.next, task⟩

/-- The queue after it accepted a task. -/
def accept (q : TaskQueue τ) (task : τ) (delay : Nanos) : TaskQueue τ :=
  { q with next := q.next + 1, pending := insert (q.posted task delay) q.pending }

/-- A post is accepted or refused, and a refused one changes nothing. -/
theorem post_eq_ok {q q' : TaskQueue τ} {task : τ} {delay : Nanos} {accepted : Bool}
    (h : q.post task delay = .ok (accepted, q')) :
    accepted = q.accepting ∧ q' = if accepted then q.accept task delay else q := by
  unfold post at h
  split at h
  · next hopen =>
    cases hdue : Nanos.add q.now delay with
    | error f => rw [hdue] at h; cases h
    | ok due =>
      obtain ⟨rfl, -⟩ := Nanos.add_eq_ok.1 hdue
      rw [hdue] at h
      cases h
      exact ⟨hopen.symm, rfl⟩
  · next hshut =>
    cases h
    exact ⟨(Bool.not_eq_true _ ▸ hshut).symm, rfl⟩

/-- The due time of a task that is accepted can be formed. -/
theorem formed_of_post {q q' : TaskQueue τ} {task : τ} {delay : Nanos}
    (h : q.post task delay = .ok (true, q')) : q.now + delay ≤ longestSpan := by
  unfold post at h
  split at h
  · cases hdue : Nanos.add q.now delay with
    | error f => rw [hdue] at h; cases h
    | ok due => exact (Nanos.add_eq_ok.1 hdue).2
  · cases h

/-- A queue that takes posts accepts every task whose due time can be formed. -/
theorem post_of_accepting {q : TaskQueue τ} (haccepts : q.accepting = true) (task : τ)
    {delay : Nanos} (hdue : q.now + delay ≤ longestSpan) :
    q.post task delay = .ok (true, q.accept task delay) := by
  unfold post
  rw [if_pos haccepts, Nanos.add_eq_ok.2 ⟨rfl, hdue⟩]
  rfl

/-- A post is halted only if the queue would take it, and its due time cannot be formed. -/
theorem post_eq_error {q : TaskQueue τ} {task : τ} {delay : Nanos} {f : Fault}
    (h : q.post task delay = .error f) :
    q.accepting = true ∧ f = .spanOverflow ∧ longestSpan < q.now + delay := by
  unfold post at h
  split at h
  · next hopen =>
    cases hdue : Nanos.add q.now delay with
    | error f' =>
      rw [hdue] at h
      cases h
      exact ⟨hopen, Nanos.add_eq_error.1 hdue⟩
    | ok due => rw [hdue] at h; cases h
  · cases h

/-- A queue that takes no posts refuses every one, and stays as it is. -/
theorem post_of_refusing {q : TaskQueue τ} (hrefuses : q.accepting = false) (task : τ)
    (delay : Nanos) : q.post task delay = .ok (false, q) := by
  unfold post
  rw [hrefuses]
  rfl

/-- A new task goes behind all that precede it. -/
theorem pairwise_insert {p : Pending τ} {ps : List (Pending τ)}
    (hsorted : ps.Pairwise Pending.Precedes) (hnew : ∀ q ∈ ps, q.number < p.number) :
    (insert p ps).Pairwise Pending.Precedes := by
  induction ps with
  | nil => exact List.pairwise_singleton _ _
  | cons q rest ih =>
    obtain ⟨hq, hrest⟩ := List.pairwise_cons.1 hsorted
    unfold insert
    split
    · next hle =>
      refine List.pairwise_cons.2 ⟨fun x hx => ?_, ih hrest fun x hx =>
        hnew x (List.mem_cons_of_mem _ hx)⟩
      rcases mem_insert.1 hx with rfl | hx
      · exact (Nat.lt_or_eq_of_le hle).imp id fun heq =>
          ⟨heq, hnew q (List.mem_cons_self ..)⟩
      · exact hq x hx
    · next hlt =>
      refine List.pairwise_cons.2 ⟨fun x hx => .inl ?_, hsorted⟩
      rcases List.mem_cons.1 hx with rfl | hx
      · exact Nat.lt_of_not_le hlt
      · exact Nat.lt_of_lt_of_le (Nat.lt_of_not_le hlt) (hq x hx).due_le

@[simp] theorem now_accept (q : TaskQueue τ) (task : τ) (delay : Nanos) :
    (q.accept task delay).now = q.now :=
  rfl

theorem mem_pending_accept {q : TaskQueue τ} {task : τ} {delay : Nanos} {p : Pending τ} :
    p ∈ (q.accept task delay).pending ↔ p = q.posted task delay ∨ p ∈ q.pending :=
  mem_insert

theorem InTime.accept {q : TaskQueue τ} (h : q.InTime) (task : τ) (delay : Nanos) :
    (q.accept task delay).InTime where
  sorted := pairwise_insert h.sorted fun _ hp => h.numbered hp
  notBefore hp := by
    rcases mem_pending_accept.1 hp with rfl | hp
    · exact Nat.le_add_right _ _
    · exact h.notBefore hp
  numbered hp := by
    rcases mem_pending_accept.1 hp with rfl | hp
    · exact Nat.lt_succ_self _
    · exact Nat.lt_succ_of_lt (h.numbered hp)

@[simp] theorem pending_clear (q : TaskQueue τ) : q.clear.pending = [] := rfl

@[simp] theorem next_clear (q : TaskQueue τ) : q.clear.next = q.next := rfl

theorem inTime_clear (q : TaskQueue τ) : q.clear.InTime := ⟨.nil, nofun, nofun⟩

/-! ## Taking tasks out -/

/-- The queue without its first task, at the time that the task is due. -/
def without (q : TaskQueue τ) (p : Pending τ) (rest : List (Pending τ)) : TaskQueue τ :=
  { q with now := max q.now p.due, pending := rest }

@[simp] theorem pending_without (q : TaskQueue τ) (p : Pending τ) (rest : List (Pending τ)) :
    (q.without p rest).pending = rest :=
  rfl

@[simp] theorem next_without (q : TaskQueue τ) (p : Pending τ) (rest : List (Pending τ)) :
    (q.without p rest).next = q.next :=
  rfl

theorem popNext_eq_some {q q' : TaskQueue τ} {task : τ} :
    q.popNext = some (task, q')
      ↔ ∃ p rest, q.pending = p :: rest ∧ task = p.task ∧ q' = q.without p rest := by
  unfold popNext
  split
  · next hnil => simp [hnil]
  · next p rest hcons =>
    constructor
    · intro h
      cases h
      exact ⟨p, rest, hcons, rfl, rfl⟩
    · rintro ⟨p', rest', hcons', rfl, rfl⟩
      cases hcons.symm.trans hcons'
      rfl

theorem popDue_eq_none {q : TaskQueue τ} {deadline : Nanos} :
    q.popDue deadline = none ↔ ∀ p ∈ q.pending.head?, deadline < p.due := by
  unfold popDue
  split
  · next hnil => simp [hnil]
  · next p rest hcons =>
    rw [hcons, List.head?_cons]
    split
    · next hle => simp [popNext, hcons, hle]
    · next hlt => simpa using hlt

theorem popDue_eq_some {q q' : TaskQueue τ} {deadline : Nanos} {task : τ} :
    q.popDue deadline = some (task, q')
      ↔ ∃ p rest, q.pending = p :: rest ∧ p.due ≤ deadline ∧ task = p.task ∧
        q' = q.without p rest := by
  unfold popDue
  split
  · next hnil => simp [hnil]
  · next p rest hcons =>
    split
    · next hle =>
      rw [popNext_eq_some]
      constructor
      · rintro ⟨p', rest', hcons', rfl, rfl⟩
        cases hcons.symm.trans hcons'
        exact ⟨p, rest, hcons, hle, rfl, rfl⟩
      · rintro ⟨p', rest', hcons', -, rfl, rfl⟩
        exact ⟨p', rest', hcons', rfl, rfl⟩
    · next hlt =>
      refine ⟨nofun, ?_⟩
      rintro ⟨p', rest', hcons', hle, -⟩
      cases hcons.symm.trans hcons'
      exact absurd hle hlt

/-- The earliest task that is due is the earliest task. -/
theorem popNext_of_popDue {q q' : TaskQueue τ} {deadline : Nanos} {task : τ}
    (hpop : q.popDue deadline = some (task, q')) : q.popNext = some (task, q') := by
  obtain ⟨p, rest, hpending, -, htask, hrest⟩ := popDue_eq_some.1 hpop
  exact popNext_eq_some.2 ⟨p, rest, hpending, htask, hrest⟩

namespace InTime

variable {q : TaskQueue τ} {p : Pending τ} {rest : List (Pending τ)}

/-- A task that is taken out takes the clock to the time it was due. -/
theorem now_without (h : q.InTime) (hpending : q.pending = p :: rest) :
    (q.without p rest).now = p.due :=
  Nat.max_eq_right (h.notBefore (hpending ▸ List.mem_cons_self ..))

/-- The first task precedes all others. -/
theorem precedes_of_mem (h : q.InTime) (hpending : q.pending = p :: rest) {r : Pending τ}
    (hr : r ∈ rest) : p.Precedes r := by
  have hsorted := h.sorted
  rw [hpending] at hsorted
  exact (List.pairwise_cons.1 hsorted).1 r hr

theorem without (h : q.InTime) (hpending : q.pending = p :: rest) :
    (q.without p rest).InTime where
  sorted := by
    have hsorted := h.sorted
    rw [hpending] at hsorted
    exact (List.pairwise_cons.1 hsorted).2
  notBefore hr := by
    rw [h.now_without hpending]
    exact (h.precedes_of_mem hpending hr).due_le
  numbered hr := h.numbered (hpending ▸ List.mem_cons_of_mem _ hr)

/-- If nothing is due by a deadline, every task that waits is due later. -/
theorem lt_due_of_popDue_eq_none (h : q.InTime) {deadline : Nanos}
    (hnone : q.popDue deadline = none) (hp : p ∈ q.pending) : deadline < p.due := by
  rw [popDue_eq_none] at hnone
  cases hpending : q.pending with
  | nil => rw [hpending] at hp; cases hp
  | cons first rest =>
    rw [hpending] at hnone hp
    have hfirst : deadline < first.due := hnone first rfl
    rcases List.mem_cons.1 hp with rfl | hrest
    · exact hfirst
    · exact Nat.lt_of_lt_of_le hfirst (h.precedes_of_mem hpending hrest).due_le

/-- The clock may be moved to a time by which nothing is due any more. -/
theorem moved (h : q.InTime) {deadline : Nanos} (hnone : q.popDue deadline = none) :
    ({ q with now := deadline } : TaskQueue τ).InTime where
  sorted := h.sorted
  notBefore hp := Nat.le_of_lt (h.lt_due_of_popDue_eq_none hnone hp)
  numbered := h.numbered

end InTime

/-! ## Times that can be formed -/

/-- The times that a queue knows can be formed: that of its clock, and those at which its tasks
are due. -/
structure Formed (q : TaskQueue τ) : Prop where
  now : q.now ≤ longestSpan
  due {p : Pending τ} (hp : p ∈ q.pending) : p.due ≤ longestSpan

namespace Formed

variable {q : TaskQueue τ}

theorem empty : ({} : TaskQueue τ).Formed := ⟨Nat.zero_le _, nofun⟩

theorem accept (h : q.Formed) (task : τ) {delay : Nanos} (hdue : q.now + delay ≤ longestSpan) :
    (q.accept task delay).Formed where
  now := h.now
  due hp := by
    rcases mem_pending_accept.1 hp with rfl | hp
    · exact hdue
    · exact h.due hp

theorem without (h : q.Formed) {p : Pending τ} {rest : List (Pending τ)}
    (hpending : q.pending = p :: rest) : (q.without p rest).Formed where
  now := Nat.max_le.2 ⟨h.now, h.due (hpending ▸ List.mem_cons_self ..)⟩
  due hr := h.due (hpending ▸ List.mem_cons_of_mem _ hr)

end Formed

end TaskQueue

end Compositor
