import Compositor.Manager.State
import Compositor.Proofs.Manager.Accounts
import Compositor.Proofs.Task.Slots

/-!
# What may become of a manager

Whatever a host does with a manager, the manager changes in one of a few ways at a time:
`Manager.Evolves` lists them, each with what the host has made sure of before, and only
keeping the outcome of a pass is none of them. What is true of all of them, and of that, is
true of all that an embedder can do, and does not have to be followed through requests,
passes and callbacks again.

A manager that was shut down is **at rest**: nothing waits for it, and from there on it
evolves in its books alone. What its latest pass left is what it shows for ever.
-/

namespace Compositor.Manager

/-- **One change of a manager**, other than by the outcome of a pass. -/
inductive Evolves (m : Manager) : Manager → Prop where
  | request (immediate : Bool) (handles : Handles) : m.Evolves (m.request immediate handles).2.1
  | refused (immediate : Bool) (handles : Handles) : m.Evolves (m.refused immediate handles).1
  | clear (handles : Handles) : m.Evolves (m.clearWaiting handles).1
  | shut (hup : m.shutDown = false) (handles : Handles) :
      m.Evolves ({ m with shutDown := true }.clearWaiting handles).1
  | resize (windows : Option Nat) : m.Evolves { m with windows }
  /-- A tracking group was opened or closed. -/
  | book {entry : Ledger.Entry} {ledger : Ledger} (hbook : m.ledger.book entry = .ok ledger) :
      m.Evolves { m with ledger }
  | report {id : GroupId} {old new : Nat} {calls : Bool}
      (hreport : (m.report id old new).1 = .ok calls) : m.Evolves (m.report id old new).2
  /-- A pass was planned. -/
  | count : m.Evolves { m with passes := m.passes + 1 }

/-! ## Transitions that leave the books alone -/

section Transitions

variable (m : Manager) (immediate : Bool) (handles : Handles)

theorem ledger_request : (m.request immediate handles).2.1.ledger = m.ledger := by
  unfold request
  split
  · rfl
  · split
    · rfl
    · split <;> rfl

theorem ledger_refused : (m.refused immediate handles).1.ledger = m.ledger := by
  unfold refused
  split <;> rfl

theorem ledger_report (id : GroupId) (old new : Nat) :
    (m.report id old new).2.ledger = (m.ledger.report id old new).2 := by
  unfold report
  dsimp only
  split
  · rfl
  · split <;> rfl

end Transitions

variable {m m' : Manager}

/-- A report that comes to an answer is an entry in the books. -/
theorem book_report {id : GroupId} {old new : Nat} {calls : Bool}
    (hreport : (m.report id old new).1 = .ok calls) :
    m.ledger.book (.reported id old new) = .ok (m.report id old new).2.ledger := by
  rw [ledger_report]
  unfold report at hreport
  simp only [Ledger.book]
  cases hledger : m.ledger.report id old new with
  | mk outcome ledger =>
    rw [hledger] at hreport
    cases outcome with
    | error f => cases hreport
    | ok known => rfl

/-- **The books change by entries alone.** -/
theorem Evolves.ledger (h : m.Evolves m') :
    m'.ledger = m.ledger ∨ ∃ entry, m.ledger.book entry = .ok m'.ledger := by
  cases h with
  | request immediate handles => exact .inl (ledger_request m immediate handles)
  | refused immediate handles => exact .inl (ledger_refused m immediate handles)
  | clear | shut | resize | count => exact .inl rfl
  | book hbook => exact .inr ⟨_, hbook⟩
  | report hreport => exact .inr ⟨_, book_report hreport⟩

/-! ## At rest -/

/-- Nothing waits for the manager if it was shut down. -/
def IsSealed (m : Manager) : Prop :=
  m.shutDown = true → m.immediate = false ∧ m.delayed.current = none

/-- What a manager shows of its latest pass: the total, what each stub was given, and the
sums and counts. -/
def published (m : Manager) : Nat × Table StubId StubStat × Breakdown :=
  (m.available, m.lastStats, m.lastBreakdown)

/-- **A manager that was shut down shows what it showed then**: it is still shut down, and no
pass has published anything since. -/
def HasSealed (m m' : Manager) : Prop :=
  m.shutDown = true → m'.shutDown = true ∧ m'.published = m.published

theorem HasSealed.refl (m : Manager) : m.HasSealed m := fun hdown => ⟨hdown, rfl⟩

theorem HasSealed.trans {m₁ m₂ m₃ : Manager} (h₁ : m₁.HasSealed m₂) (h₂ : m₂.HasSealed m₃) :
    m₁.HasSealed m₃ := fun hdown =>
  ⟨(h₂ (h₁ hdown).1).1, (h₂ (h₁ hdown).1).2.trans (h₁ hdown).2⟩

theorem isSealed_ofConfig (detected : Platform) (c : Config) :
    (ofConfig detected c).IsSealed := nofun

/-- Nothing is scheduled for a manager that was shut down. -/
theorem IsSealed.isScheduled (h : m.IsSealed) (hdown : m.shutDown = true) (handles : Handles) :
    m.isScheduled handles = false := by
  obtain ⟨himmediate, hcurrent⟩ := h hdown
  simp only [Manager.isScheduled, Slot.isPending, himmediate, hcurrent, Bool.or_false]

/-- Nothing is left to be taken down. -/
theorem IsSealed.clearWaiting_eq (h : m.IsSealed) (hdown : m.shutDown = true)
    (handles : Handles) : m.clearWaiting handles = (m, handles) := by
  obtain ⟨himmediate, hcurrent⟩ := h hdown
  unfold clearWaiting Slot.cancel
  rw [hcurrent]
  show ({ m with immediate := false }, handles) = (m, handles)
  rw [← himmediate]

theorem request_of_shutDown (hdown : m.shutDown = true) (immediate : Bool) (handles : Handles) :
    m.request immediate handles = (.covered, m, handles) := by
  unfold request
  rw [hdown]
  rfl

/-- A request touches nothing but what waits. -/
theorem request_eq (m : Manager) (immediate : Bool) (handles : Handles) :
    (m.request immediate handles).2.1 = { m with
      immediate := (m.request immediate handles).2.1.immediate
      delayed := (m.request immediate handles).2.1.delayed } := by
  unfold request
  split
  · rfl
  · split
    · rfl
    · split <;> rfl

/-- A refusal touches nothing but what waits. -/
theorem refused_eq (m : Manager) (immediate : Bool) (handles : Handles) :
    (m.refused immediate handles).1 = { m with
      immediate := (m.refused immediate handles).1.immediate
      delayed := (m.refused immediate handles).1.delayed } := by
  unfold refused
  split <;> rfl

/-- A report touches nothing but the books and the count of those that went too far. -/
theorem report_eq (m : Manager) (id : GroupId) (old new : Nat) :
    (m.report id old new).2 = { m with
      ledger := (m.report id old new).2.ledger
      overBudget := (m.report id old new).2.overBudget } := by
  unfold report
  dsimp only
  split
  · rfl
  · split <;> rfl

theorem shutDown_request (m : Manager) (immediate : Bool) (handles : Handles) :
    (m.request immediate handles).2.1.shutDown = m.shutDown := by
  rw [request_eq]

theorem IsSealed.refused (h : m.IsSealed) (immediate : Bool) (handles : Handles) :
    (m.refused immediate handles).1.IsSealed := by
  unfold Manager.refused
  cases immediate with
  | true => exact fun hdown => ⟨rfl, (h hdown).2⟩
  | false => exact fun hdown => ⟨(h hdown).1, Slot.current_cancel _ _⟩

theorem isSealed_report (h : m.IsSealed) (id : GroupId) (old new : Nat) :
    (m.report id old new).2.IsSealed := by
  rw [report_eq]
  exact h

theorem hasSealed_report (m : Manager) (id : GroupId) (old new : Nat) :
    m.HasSealed (m.report id old new).2 := by
  rw [report_eq]
  exact HasSealed.refl m

/-- **Once at rest, a manager stays at rest**, whatever becomes of it. -/
theorem Evolves.isSealed (h : m.Evolves m') (hm : m.IsSealed) : m'.IsSealed := by
  cases h with
  | request immediate handles =>
    intro hdown
    rw [shutDown_request] at hdown
    rw [request_of_shutDown hdown]
    exact hm hdown
  | refused immediate handles => exact hm.refused immediate handles
  | clear | shut => exact fun _ => ⟨rfl, Slot.current_cancel _ _⟩
  | resize | book | count => exact hm
  | report => exact isSealed_report hm _ _ _

theorem Evolves.hasSealed (h : m.Evolves m') : m.HasSealed m' := by
  intro hdown
  cases h with
  | request immediate handles =>
    rw [request_of_shutDown hdown]
    exact ⟨hdown, rfl⟩
  | refused immediate handles =>
    rw [refused_eq]
    exact ⟨hdown, rfl⟩
  | clear | resize | book | count => exact ⟨hdown, rfl⟩
  | shut hup => exact absurd (hdown.symm.trans hup) Bool.noConfusion
  | report => exact hasSealed_report m _ _ _ hdown

/-- Only a manager that is up keeps the outcome of a pass, and so it stays at rest if it is not. -/
theorem isSealed_publish (hup : m.shutDown = false) (total : Nat) (plan : Plan) :
    (m.publish total plan).IsSealed :=
  fun hdown => absurd (hdown.symm.trans hup) Bool.noConfusion

theorem hasSealed_publish (hup : m.shutDown = false) (total : Nat) (plan : Plan) :
    m.HasSealed (m.publish total plan) :=
  fun hdown => absurd (hdown.symm.trans hup) Bool.noConfusion

theorem published_report (m : Manager) (id : GroupId) (old new : Nat) :
    (m.report id old new).2.published = m.published := by
  rw [report_eq]
  rfl

/-- **Nothing but a pass changes what is shown of the latest one.** -/
theorem Evolves.published (h : m.Evolves m') : m'.published = m.published := by
  cases h with
  | request =>
    rw [request_eq]
    rfl
  | refused =>
    rw [refused_eq]
    rfl
  | clear | shut | resize | book | count => rfl
  | report => exact published_report m _ _ _

end Compositor.Manager
