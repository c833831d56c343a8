import Compositor.Proofs.Host.Managed

/-!
# The books over whole runs

A manager's ledger changes by entries alone, whatever the embedder does to the host and
whatever the callbacks do while a pass is under way. So the ledger of every manager,
at every time, has a history of entries from the time before, and if it was opened on
the host, from the empty ledger. Balance, exactness and the growth of the highest sum
follow from the history.
-/

namespace Compositor

/-- The books of a seat change by entries alone. -/
theorem ManagerSeat.Evolves.ledger {S : Type} {s s' : ManagerSeat S} (h : s.Evolves s') :
    s'.manager.ledger = s.manager.ledger
      ∨ ∃ entry, s.manager.ledger.book entry = .ok s'.manager.ledger := by
  cases h with
  | manager hm => exact hm.ledger
  | edit => exact .inl rfl

namespace Host

open Compositor.Action

variable {S : Type}

/-- The ledger that a manager starts from: the one that it has among some managers, or an
empty one if it comes later. -/
def opening (base : Roster (ManagerSeat S)) (number : Nat) : Ledger :=
  ((base.get? number).map fun s => s.manager.ledger).getD {}

/-- **The ledgers of later managers came of those of earlier ones**, each in the same way, and no
manager is gone. -/
structure Traced (R : Ledger → Ledger → Prop) (base managers : Roster (ManagerSeat S)) : Prop where
  length_le : base.members.length ≤ managers.members.length
  trace {number : Nat} {seat : ManagerSeat S} (hseat : managers.get? number = some seat) :
    R (opening base number) seat.manager.ledger

/-- Books that balance at the start. -/
def BalancedAt (base : Roster (ManagerSeat S)) : Prop :=
  ∀ number, (opening base number).Balanced

namespace Traced

variable {R : Ledger → Ledger → Prop} {base managers : Roster (ManagerSeat S)} {number : Nat}
  {seat : ManagerSeat S}

theorem refl (hrefl : ∀ l, R l l) (base : Roster (ManagerSeat S)) : Traced R base base where
  length_le := Nat.le_refl _
  trace {number seat} hseat := by
    unfold opening
    rw [hseat]
    exact hrefl _

/-- Whoever was there still is, and their ledger was traced from then on. -/
theorem exists_seat (h : Traced R base managers) (hseat : base.get? number = some seat) :
    ∃ seat', managers.get? number = some seat' ∧ R seat.manager.ledger seat'.manager.ledger := by
  have hlt := Nat.lt_of_lt_of_le (List.getElem?_eq_some_iff.1 hseat).1 h.length_le
  have hget : managers.get? number = some managers.members[number] := List.getElem?_eq_getElem hlt
  have htrace := h.trace hget
  unfold opening at htrace
  rw [hseat] at htrace
  exact ⟨_, hget, htrace⟩

/-- A change of a manager whose ledger goes on in that way. -/
theorem update (h : Traced R base managers) (htrans : ∀ {l l' l''}, R l l' → R l' l'' → R l l'')
    {f : ManagerSeat S → ManagerSeat S}
    (hf : ∀ seat, managers.get? number = some seat →
      R seat.manager.ledger (f seat).manager.ledger) :
    Traced R base (managers.update number f) where
  length_le := by
    rw [Roster.length_update]
    exact h.length_le
  trace {other seat'} hseat := by
    by_cases hother : other = number
    · rw [hother, Roster.get?_update_self] at hseat
      obtain ⟨seat, hget, rfl⟩ := Option.map_eq_some_iff.1 hseat
      rw [hother]
      exact htrans (h.trace hget) (hf seat hget)
    · rw [Roster.get?_update_of_ne _ _ hother] at hseat
      exact h.trace hseat

/-- A new manager, with an empty ledger. -/
theorem enroll (h : Traced R base managers) (hrefl : ∀ l, R l l) (name : String)
    (hempty : seat.manager.ledger = {}) : Traced R base (managers.enroll name seat).2 where
  length_le := by
    show _ ≤ (managers.members ++ [seat]).length
    rw [List.length_append]
    exact Nat.le_add_right_of_le h.length_le
  trace {number seat'} hseat := by
    have hget : (managers.members ++ [seat])[number]? = some seat' := hseat
    rw [List.getElem?_append] at hget
    split at hget
    · exact h.trace hget
    · next hlt =>
      -- its number was not given before, so its ledger starts empty
      have hnone : base.get? number = none :=
        List.getElem?_eq_none (Nat.le_trans h.length_le (Nat.le_of_not_lt hlt))
      obtain rfl : seat = seat' := by
        rw [List.getElem?_singleton] at hget
        split at hget
        · exact Option.some.inj hget
        · cases hget
      unfold opening
      rw [hnone, hempty]
      exact hrefl _

theorem forget (h : Traced R base managers) (name : String) :
    Traced R base (managers.forget name) := by
  unfold Roster.forget
  split
  · exact h
  · exact ⟨h.length_le, h.trace⟩

/-- **How ledgers are traced through whatever is done with managers**: it is enough to know what a
single change makes of a ledger, and what is left of a report that faults. -/
theorem passing (hrefl : ∀ l, R l l) (htrans : ∀ {l l' l''}, R l l' → R l' l'' → R l l'')
    {E : Host S → Prop} (hbeside : Beside (OnManagers (Traced R base)) E)
    (hevolve : ∀ {managers : Roster (ManagerSeat S)} {number : Nat} {seat seat' : ManagerSeat S},
      Traced R base managers → managers.get? number = some seat → seat.Evolves seat' →
        R seat.manager.ledger seat'.manager.ledger)
    (hmisreport : ∀ {h : Host S} {number : Nat} {seat : ManagerSeat S},
      OnManagers (Traced R base) h → h.state.managers.get? number = some seat →
        ∀ id old new, E { h with state := { h.state with
          managers := h.state.managers.update number fun s =>
            { s with manager := (seat.manager.report id old new).2 } } }) :
    Passing (OnManagers (Traced R base)) E where
  toBeside := hbeside
  evolve hP hf := Traced.update hP htrans fun seat hseat => hevolve hP hseat (hf seat hseat)
  misreport := hmisreport
  enroll hP owner _ _ := Traced.enroll hP hrefl owner.name rfl
  forget hP name := Traced.forget hP name
  restub hP _ := hP
  grant hP _ _ := hP
  publish hP _ _ _ _ _ _ := Traced.update hP htrans fun _ _ => hrefl _

end Traced

/-- **The ledgers of later managers have a history** from those of earlier ones. -/
abbrev Booked (base managers : Roster (ManagerSeat S)) : Prop :=
  Traced Ledger.History base managers

theorem Booked.balanced {base managers : Roster (ManagerSeat S)} (h : Booked base managers)
    (hbase : BalancedAt base) {number : Nat} {seat : ManagerSeat S}
    (hseat : managers.get? number = some seat) : seat.manager.ledger.Balanced :=
  (h.trace hseat).balanced (hbase number)

/-! ## What is done on a host -/

section Operations

variable {base : Roster (ManagerSeat S)}

/-- The ledgers of the managers on a host have a history. -/
abbrev OnBooks (base : Roster (ManagerSeat S)) : Host S → Prop := OnManagers (Booked base)

/-- A single change of a seat adds an entry to the books of its manager, or none. -/
theorem Booked.evolve {managers : Roster (ManagerSeat S)} (h : Booked base managers)
    (hbase : BalancedAt base) {number : Nat} {seat seat' : ManagerSeat S}
    (hseat : managers.get? number = some seat) (hevolves : seat.Evolves seat') :
    seat.manager.ledger.History seat'.manager.ledger := by
  rcases hevolves.ledger with hsame | ⟨entry, hbook⟩
  · rw [hsame]
    exact .refl
  · exact .single ((h.balanced hbase hseat).follows hbook)

/-- **Whatever is done with managers goes through the books.** A report that faults may leave
a ledger behind that is out of balance, but then the report does not come to an answer. -/
theorem passing_onBooks (hbase : BalancedAt base) :
    Passing (OnBooks base) (fun _ => True : Host S → Prop) :=
  Traced.passing (fun _ => .refl) .trans beside_onManagers
    (fun h hseat hevolves => Booked.evolve h hbase hseat hevolves) fun _ _ _ _ _ => trivial

end Operations

end Host

end Compositor
