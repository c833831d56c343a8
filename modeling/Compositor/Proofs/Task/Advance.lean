import Compositor.Proofs.Task.History

/-!
# Advancing is additive

Moving the clock ahead by a sum of spans is moving it ahead by the one and then by the other:
the same tasks are run in the same order, each when the clock reads the same, and the two ways
lead to the same loop. The way in two steps stops at a time between, and stops there whether
or not a task is due at that time, before or after it, or is posted only on the way.

The two ways pump up to different deadlines, so they are compared turn by turn. While tasks
are due by the time between, both take the same task from the same loop. After that the loop
of the two steps has its clock at the time between, the other one has it where the last task
left it; the next task is due later than either, so that taking it out sets both clocks to the
same time, and from there on the loops are equal.
-/

namespace Compositor

namespace EventLoop

variable {τ σ : Type} {exec : τ → Act τ σ Unit} {l l' : EventLoop τ σ} {n fuel : Nat}
  {deadline : Nanos}

/-- **The tasks that are run up to a deadline**, in order, each with what the clock reads when
it is run. -/
def served (exec : τ → Act τ σ Unit) (deadline : Nanos) :
    Nat → EventLoop τ σ → List (Nanos × Pending τ)
  | 0, _ => []
  | fuel + 1, l =>
    match l.queue.pending with
    | [] => []
    | p :: rest =>
      if p.due ≤ deadline then
        ((l.taken p rest).queue.now, p) ::
          match (exec p.task).on (l.taken p rest) with
          | (.ok (), l₁) => served exec deadline fuel l₁
          | (.error _, _) => []
      else []

/-! ## Running what is due, turn by turn -/

/-- Running what is due comes to an answer if nothing is due, or if the first task does and
running the rest does. -/
theorem on_runDue_eq_ok :
    (runDue exec deadline (fuel + 1)).on l = (.ok n, l') ↔
      (l.queue.popDue deadline = none ∧ n = 0 ∧ l' = l) ∨
      ∃ p rest l₁ m, l.queue.pending = p :: rest ∧ p.due ≤ deadline ∧
        (exec p.task).on (l.taken p rest) = (.ok (), l₁) ∧
        (runDue exec deadline fuel).on l₁ = (.ok m, l') ∧ n = m + 1 := by
  rw [Action.on_eq_ok_iff, runDue]
  simp only [Action.ends_bind, Action.ends_get]
  cases hpop : l.queue.popDue deadline with
  | none =>
    simp only [Action.ends_pure]
    constructor
    · rintro ⟨rfl, rfl⟩
      exact .inl ⟨trivial, rfl, rfl⟩
    · rintro (⟨-, rfl, rfl⟩ | ⟨p, rest, _, _, hpending, hdue, -⟩)
      · exact ⟨rfl, rfl⟩
      · rw [TaskQueue.popDue_eq_some.2 ⟨p, rest, hpending, hdue, rfl, rfl⟩] at hpop
        cases hpop
  | some popped =>
    obtain ⟨task, queue⟩ := popped
    obtain ⟨p, rest, hpending, hdue, rfl, rfl⟩ := TaskQueue.popDue_eq_some.1 hpop
    simp only [Action.ends_bind, Action.ends_modify, Action.ends_pure]
    simp only [Action.ends_false_iff]
    constructor
    · rintro ⟨⟨⟩, l₁, hexec, m, l₂, hrest, rfl, rfl⟩
      exact .inr ⟨p, rest, l₁, m, hpending, hdue, hexec, hrest, rfl⟩
    · rintro (⟨hnone, -⟩ | ⟨p', rest', l₁, m, hpending', -, hexec, hrest, rfl⟩)
      · cases hnone
      · cases hpending.symm.trans hpending'
        exact ⟨(), l₁, hexec, m, l', hrest, rfl, rfl⟩

theorem served_of_none (hnone : l.queue.popDue deadline = none) :
    served exec deadline fuel l = [] := by
  rw [TaskQueue.popDue_eq_none] at hnone
  cases fuel with
  | zero => rfl
  | succ fuel =>
    unfold served
    cases hpending : l.queue.pending with
    | nil => rfl
    | cons p rest =>
      rw [hpending] at hnone
      exact if_neg (Nat.not_le_of_lt (hnone p rfl))

theorem served_of_due {p : Pending τ} {rest : List (Pending τ)} {l₁ : EventLoop τ σ}
    (hpending : l.queue.pending = p :: rest) (hdue : p.due ≤ deadline)
    (hexec : (exec p.task).on (l.taken p rest) = (.ok (), l₁)) :
    served exec deadline (fuel + 1) l
      = ((l.taken p rest).queue.now, p) :: served exec deadline fuel l₁ := by
  rw [served, hpending]
  show (if p.due ≤ deadline then _ else _) = _
  rw [if_pos hdue, hexec]

/-- More fuel changes nothing once there was enough. -/
theorem runDue_succ (h : (runDue exec deadline fuel).on l = (.ok n, l')) :
    (runDue exec deadline (fuel + 1)).on l = (.ok n, l') ∧
      served exec deadline (fuel + 1) l = served exec deadline fuel l := by
  induction fuel generalizing l n with
  | zero => cases h
  | succ fuel ih =>
    rcases on_runDue_eq_ok.1 h with
      ⟨hnone, rfl, rfl⟩ | ⟨p, rest, l₁, m, hpending, hdue, hexec, hrest, rfl⟩
    · rw [served_of_none hnone, served_of_none hnone]
      exact ⟨on_runDue_eq_ok.2 (.inl ⟨hnone, rfl, rfl⟩), rfl⟩
    · obtain ⟨hrest', hserved⟩ := ih hrest
      rw [served_of_due hpending hdue hexec, served_of_due hpending hdue hexec, hserved]
      exact ⟨on_runDue_eq_ok.2 (.inr ⟨p, rest, l₁, m, hpending, hdue, hexec, hrest', rfl⟩), rfl⟩

/-! ## Stopping on the way -/

theorem popDue_setClock_eq_none {now : Nanos} :
    (l.setClock now).queue.popDue deadline = none ↔ l.queue.popDue deadline = none := by
  rw [TaskQueue.popDue_eq_none, TaskQueue.popDue_eq_none]
  exact Iff.rfl

/-- What the clock read does not matter to a task that is due later. -/
theorem taken_setClock {now : Nanos} {p : Pending τ} (rest : List (Pending τ))
    (hnow : now ≤ p.due) (hle : l.queue.now ≤ p.due) :
    (l.setClock now).taken p rest = l.taken p rest := by
  unfold taken TaskQueue.without
  rw [show max (l.setClock now).queue.now p.due = p.due from Nat.max_eq_right hnow,
    Nat.max_eq_right hle]
  rfl

/-- **Running what is due may stop on the way.** What is due by a deadline is run in two
parts, the second of which starts with the clock at the time between; at the deadline no
difference is left. -/
theorem runDue_split (hclock : ∀ task l l', (exec task).on l = (.ok (), l') →
      l'.queue.now = l.queue.now) {mid : Nanos} (hmid : mid ≤ deadline)
    (hnow : l.queue.now ≤ mid) (h : (runDue exec deadline fuel).on l = (.ok n, l')) :
    ∃ n₁ n₂ l₁ l₂, (runDue exec mid fuel).on l = (.ok n₁, l₁) ∧
      (runDue exec deadline fuel).on (l₁.setClock mid) = (.ok n₂, l₂) ∧ n₁ + n₂ = n ∧
      l₂.setClock deadline = l'.setClock deadline ∧
      served exec deadline fuel l
        = served exec mid fuel l ++ served exec deadline fuel (l₁.setClock mid) := by
  induction fuel generalizing l n with
  | zero => cases h
  | succ fuel ih =>
    rcases on_runDue_eq_ok.1 h with
      ⟨hnone, rfl, rfl⟩ | ⟨p, rest, l₁, m, hpending, hdue, hexec, hrest, rfl⟩
    · -- Nothing is due by the deadline, so neither part runs anything.
      have hnone₁ : l'.queue.popDue mid = none := by
        rw [TaskQueue.popDue_eq_none] at hnone ⊢
        exact fun p hp => Nat.lt_of_le_of_lt hmid (hnone p hp)
      have hnone₂ : (l'.setClock mid).queue.popDue deadline = none :=
        popDue_setClock_eq_none.2 hnone
      refine ⟨0, 0, l', l'.setClock mid, on_runDue_eq_ok.2 (.inl ⟨hnone₁, rfl, rfl⟩),
        on_runDue_eq_ok.2 (.inl ⟨hnone₂, rfl, rfl⟩), rfl, rfl, ?_⟩
      rw [served_of_none hnone, served_of_none hnone₁, served_of_none hnone₂]
      rfl
    · by_cases hfirst : p.due ≤ mid
      · -- The first task is due by the time between, so the first part runs it too.
        have hnow₁ : l₁.queue.now ≤ mid := by
          rw [hclock p.task (l.taken p rest) l₁ hexec]
          exact Nat.max_le.2 ⟨hnow, hfirst⟩
        obtain ⟨n₁, n₂, l₂, l₃, hfst, hsnd, hcount, hend, hserved⟩ := ih hnow₁ hrest
        obtain ⟨hsnd', hserved'⟩ := runDue_succ hsnd
        refine ⟨n₁ + 1, n₂, l₂, l₃,
          on_runDue_eq_ok.2 (.inr ⟨p, rest, l₁, n₁, hpending, hfirst, hexec, hfst, rfl⟩), hsnd',
          by rw [Nat.add_right_comm, hcount], hend, ?_⟩
        rw [served_of_due hpending hdue hexec, served_of_due hpending hfirst hexec, hserved,
          hserved', List.cons_append]
      · -- The first task is due later, so the first part is empty and the second is the whole.
        have hlate : mid < p.due := Nat.lt_of_not_le hfirst
        have hnone : l.queue.popDue mid = none := by
          rw [TaskQueue.popDue_eq_none, hpending]
          rintro _ ⟨⟩
          exact hlate
        have htaken := taken_setClock rest (Nat.le_of_lt hlate)
          (Nat.le_trans hnow (Nat.le_of_lt hlate))
        have hexec' : (exec p.task).on ((l.setClock mid).taken p rest) = (.ok (), l₁) := by
          rw [htaken, hexec]
        refine ⟨0, m + 1, l, l', on_runDue_eq_ok.2 (.inl ⟨hnone, rfl, rfl⟩),
          on_runDue_eq_ok.2 (.inr ⟨p, rest, l₁, m, hpending, hdue, hexec', hrest, rfl⟩),
          Nat.zero_add _, rfl, ?_⟩
        rw [served_of_none hnone, served_of_due hpending hdue hexec,
          served_of_due (l := l.setClock mid) hpending hdue hexec', htaken]
        rfl

/-! ## Advancing -/

theorem on_advance_eq_ok {span : Nanos} :
    (advance exec fuel span).on l = (.ok n, l') ↔
      l.queue.now + span ≤ longestSpan ∧
      ∃ l₁, (runDue exec (l.queue.now + span) fuel).on l = (.ok n, l₁) ∧
        l' = l₁.setClock (l.queue.now + span) := by
  rw [Action.on_eq_ok_iff]
  unfold advance
  simp only [Action.ends_bind, Action.ends_get, Action.ends_ofExcept]
  cases htarget : Nanos.add l.queue.now span with
  | error f =>
    constructor
    · exact False.elim
    · rintro ⟨hspan, -⟩
      rw [Nanos.add_eq_ok.2 ⟨rfl, hspan⟩] at htarget
      cases htarget
  | ok target =>
    obtain ⟨rfl, hspan⟩ := Nanos.add_eq_ok.1 htarget
    simp only [Action.ends_modify, Action.ends_pure]
    rw [Action.ends_false_iff]
    constructor
    · rintro ⟨m, l₁, hrun, rfl, rfl⟩
      exact ⟨hspan, l₁, hrun, rfl⟩
    · rintro ⟨-, l₁, hrun, rfl⟩
      exact ⟨n, l₁, hrun, rfl, rfl⟩

/-- **Advancing is additive.** If the tasks do not pump, then an advance by a sum of spans that
comes to an answer is an advance by the first and then one by the second: both come to an
answer, the counts add up, the same tasks are run in the same order with the same readings of
the clock, and the loop is the same in the end. -/
theorem advance_add (hexec : ∀ task, (exec task).Unpumped) {a b : Nanos}
    (h : (advance exec fuel (a + b)).on l = (.ok n, l')) :
    ∃ n₁ n₂ l₁, (advance exec fuel a).on l = (.ok n₁, l₁) ∧
      (advance exec fuel b).on l₁ = (.ok n₂, l') ∧ n₁ + n₂ = n ∧
      served exec (l.queue.now + (a + b)) fuel l
        = served exec (l.queue.now + a) fuel l ++ served exec (l₁.queue.now + b) fuel l₁ := by
  obtain ⟨hspan, l₂, hrun, rfl⟩ := on_advance_eq_ok.1 h
  rw [← Nat.add_assoc] at hspan hrun ⊢
  have hclock : ∀ task l l', (exec task).on l = (.ok (), l') → l'.queue.now = l.queue.now := by
    intro task l l' hon
    obtain ⟨hs, hdeals⟩ := (hexec task l).of_on hon
    exact hdeals.now_eq
  obtain ⟨n₁, n₂, l₁, l₃, hfst, hsnd, hcount, hend, hserved⟩ :=
    runDue_split hclock (Nat.le_add_right ..) (Nat.le_add_right ..) hrun
  refine ⟨n₁, n₂, l₁.setClock (l.queue.now + a), ?_, ?_, hcount, hserved⟩
  · exact on_advance_eq_ok.2 ⟨Nat.le_trans (Nat.le_add_right ..) hspan, l₁, hfst, rfl⟩
  · exact on_advance_eq_ok.2 ⟨hspan, l₃, hsnd, hend.symm⟩

/-- A task that is due at the time between, and one that is posted on the way and due
later. -/
theorem advance_add_countdown :
    ∃ n₁ n₂ l₁ l',
      (advance countdown 9 10).on ⟨{ next := 2, pending := [⟨3, 0, 2⟩, ⟨10, 1, 0⟩] }, []⟩
        = (.ok n₁, l₁) ∧
      (advance countdown 9 5).on l₁ = (.ok n₂, l') ∧ n₁ + n₂ = 4 ∧ l'.queue.now = 15 ∧
      l'.state = [(3, 2), (8, 1), (10, 0), (13, 0)] := by
  let l : EventLoop Nat (List (Nanos × Nat)) :=
    ⟨{ next := 2, pending := [⟨3, 0, 2⟩, ⟨10, 1, 0⟩] }, []⟩
  have hon : (advance countdown 9 (10 + 5)).on l
      = (.ok 4, ((advance countdown 9 (10 + 5)).on l).2) :=
    Action.on_eq_ok_of_toOption (by decide +kernel)
  obtain ⟨n₁, n₂, l₁, hfst, hsnd, hcount, -⟩ := advance_add unpumped_countdown hon
  exact ⟨n₁, n₂, l₁, _, hfst, hsnd, hcount, by decide +kernel, by decide +kernel⟩

end EventLoop

end Compositor
