import Compositor.Proofs.Host.Managed

/-!
# Managers that were shut down

A manager that was shut down stays so, and shows for ever what its latest pass left. Two
things are to be seen of this over time. Nothing waits for such a manager (`Sealed`), so
there is nothing that could still be taken down or be found scheduled. And whatever is seen
of passes from some time on is the work of managers that were up at that time, or came
later (`Since`): the roster keeps every manager, and none is started up again, so a manager
that was up when a pass of its own started was up before.
-/

namespace Compositor

/-- A seat some time later: it is still the seat of the manager of that name, which shows what
it showed then if it was shut down. -/
structure ManagerSeat.Becomes {S : Type} (s s' : ManagerSeat S) : Prop where
  name : s'.owner.name = s.owner.name
  hasSealed : s.manager.HasSealed s'.manager

namespace ManagerSeat

variable {S : Type} {s s' s'' : ManagerSeat S}

theorem Becomes.refl (s : ManagerSeat S) : s.Becomes s := ⟨rfl, .refl _⟩

theorem Becomes.trans (h : s.Becomes s') (h' : s'.Becomes s'') : s.Becomes s'' :=
  ⟨h'.name.trans h.name, h.hasSealed.trans h'.hasSealed⟩

theorem Evolves.becomes (h : s.Evolves s') : s.Becomes s' := by
  cases h with
  | manager hm => exact ⟨rfl, hm.hasSealed⟩
  | edit => exact ⟨rfl, .refl _⟩

theorem Evolves.isSealed (h : s.Evolves s') (hs : s.manager.IsSealed) : s'.manager.IsSealed := by
  cases h with
  | manager hm => exact hm.isSealed hs
  | edit => exact hs

end ManagerSeat

namespace Host

open Compositor.Action

variable {S : Type}

/-- The manager of a number was shut down. -/
def IsShut (number : Nat) (h : Host S) : Prop :=
  ∃ seat, h.state.managers.get? number = some seat ∧ seat.manager.shutDown = true

theorem beside_isShut (number : Nat) : Beside (IsShut number) (IsShut number : Host S → Prop) where
  halted _ hh := hh
  same hmanagers _ _ hh := by
    unfold IsShut
    rw [hmanagers]
    exact hh
  haltedSame hmanagers _ _ hh := by
    unfold IsShut
    rw [hmanagers]
    exact hh
  see _ _ hh := hh

/-! ## Nothing waits -/

/-- Nothing waits for any of the managers that was shut down. -/
def Sealed (managers : Roster (ManagerSeat S)) : Prop :=
  ∀ number seat, managers.get? number = some seat → seat.manager.IsSealed

theorem sealed_new (runner : String) (platform : Platform) :
    Sealed (Host.new runner platform : Host S).state.managers := fun _ _ => nofun

theorem Sealed.update {managers : Roster (ManagerSeat S)} (h : Sealed managers) {number : Nat}
    {f : ManagerSeat S → ManagerSeat S}
    (hf : ∀ seat, managers.get? number = some seat → (f seat).manager.IsSealed) :
    Sealed (managers.update number f) := by
  intro other seat' hseat'
  rcases Roster.get?_update_eq_some hseat' with ⟨rfl, seat, hseat, rfl⟩ | ⟨-, hseat⟩
  · exact hf seat hseat
  · exact h other seat' hseat

/-- **Managers stay at rest once they were shut down.** -/
theorem passing_sealed :
    Passing (OnManagers Sealed) (OnManagers Sealed : Host S → Prop) where
  toBeside := beside_managers
  evolve hh hf := Sealed.update hh fun seat hseat => (hf seat hseat).isSealed (hh _ _ hseat)
  misreport hh hseat id old new := Sealed.update hh fun _ _ =>
    Manager.isSealed_report (hh _ _ hseat) id old new
  enroll {h} hh owner config proxy := fun number seat hseat => by
    rcases (Roster.gains_enroll h.state.managers owner.name _).get?_eq_some hseat
      with hold | ⟨-, rfl⟩
    · exact hh number seat hold
    · exact Manager.isSealed_ofConfig _ config
  forget hh name := fun number seat hseat => by
    rw [Roster.get?_forget] at hseat
    exact hh number seat hseat
  restub hh _ := hh
  grant hh _ _ := hh
  publish hh hseat hup b _ plan _ := Sealed.update hh fun seat' hseat' => by
    obtain rfl := Option.some.inj (hseat.symm.trans hseat')
    exact Manager.isSealed_publish hup b.total plan

/-! ## Nothing is left to be done -/

section AtRest

variable {h : Host S} {number : Nat} {seat : ManagerSeat S}

theorem cleared_of_shutDown (hseat : h.state.managers.get? number = some seat)
    (hsealed : seat.manager.IsSealed) (hdown : seat.manager.shutDown = true) :
    cleared h number seat = h := by
  have hsame : h.state.managers.update number (fun s => { s with manager := seat.manager })
      = h.state.managers := Roster.update_eq_self hseat rfl
  unfold cleared
  rw [hsealed.clearWaiting_eq hdown, hsame]

/-- A pass of a manager at rest changes nothing, on any thread. -/
theorem state_manage_of_shutDown (run : S → Act S Unit)
    (hseat : h.state.managers.get? number = some seat) (hsealed : seat.manager.IsSealed)
    (hdown : seat.manager.shutDown = true) : ((manage run number).on h).2 = h := by
  refine Ends.state (P := fun h' => h' = h) ((ends_manage_of_shutDown hseat hdown).2 ?_)
  rw [cleared_of_shutDown hseat hsealed hdown, ite_self]

/-- To shut down a manager once more changes nothing and does not fault, on any thread. -/
theorem shutdownManager_of_shutDown (hseat : h.state.managers.get? number = some seat)
    (hdown : seat.manager.shutDown = true) : (shutdownManager number).on h = (.ok (), h) := by
  rw [on_eq_ok_iff]
  unfold shutdownManager
  simp only [ends_bind, ends_seat?, hseat, hdown, if_true, ends_pure, and_self]

/-- **Whoever shuts down a manager has shut it down**, whatever comes of it: off the runner's
own thread it faults, but only when the manager is marked. -/
theorem ends_shutdownManager (hseat : h.state.managers.get? number = some seat) :
    (shutdownManager number).Ends h (fun _ => IsShut number) fun _ => IsShut number := by
  unfold shutdownManager
  simp only [ends_bind, ends_seat?, hseat]
  split
  · next hdown => exact ⟨seat, hseat, hdown⟩
  · simp only [ends_bind, ends_residents, ends_keep]
    -- from here on only a proxy changes
    exact (beside_isShut number).shutdownProxy seat.proxy _
      ⟨_, Roster.get?_update_of_some hseat _, by rfl⟩

end AtRest

/-! ## What is seen of passes -/

/-- The manager of a number was up, or it was not there yet. -/
def WasUp (base : Roster (ManagerSeat S)) (number : Nat) : Prop :=
  ∀ seat, base.get? number = some seat → seat.manager.shutDown = false

/-- What was seen is the work of a manager that was up, and whose stubs were asked for if any
were. -/
def IsWorkOf (base managers : Roster (ManagerSeat S)) (number : Nat) (e : Event S) : Prop :=
  WasUp base number ∧ ∃ seat, managers.get? number = some seat
    ∧ ∀ name, e = .enumerate name → seat.owner.name = name

/-- **What became of a host since some time**: every manager is still there and what was shut
down shows what it showed then, and all that was seen of passes since then is the work of
managers that were up. -/
structure Since (base h : Host S) : Prop where
  stays {number : Nat} {seat : ManagerSeat S} (hseat : base.state.managers.get? number = some seat) :
    ∃ seat', h.state.managers.get? number = some seat' ∧ seat.Becomes seat'
  seen : ∃ news, h.state.events = news ++ base.state.events ∧ ∀ e ∈ news, e.isOfPass = true →
    ∃ number, IsWorkOf base.state.managers h.state.managers number e

namespace Since

variable {h₁ h₂ h₃ : Host S}

theorem refl (h : Host S) : Since h h :=
  ⟨fun hseat => ⟨_, hseat, .refl _⟩, [], rfl, fun _ => nofun⟩

/-- What was up later was up before. -/
theorem wasUp (h : Since h₁ h₂) {number : Nat} (hup : WasUp h₂.state.managers number) :
    WasUp h₁.state.managers number := by
  intro seat hseat
  obtain ⟨seat', hseat', hbecomes⟩ := h.stays hseat
  refine Bool.eq_false_iff.2 fun hdown => ?_
  exact Bool.noConfusion ((hbecomes.hasSealed hdown).1.symm.trans (hup seat' hseat'))

theorem trans (h : Since h₁ h₂) (h' : Since h₂ h₃) : Since h₁ h₃ := by
  refine ⟨fun hseat => ?_, ?_⟩
  · obtain ⟨seat', hseat', hbecomes⟩ := h.stays hseat
    obtain ⟨seat'', hseat'', hbecomes'⟩ := h'.stays hseat'
    exact ⟨seat'', hseat'', hbecomes.trans hbecomes'⟩
  · obtain ⟨news, hevents, hnews⟩ := h.seen
    obtain ⟨news', hevents', hnews'⟩ := h'.seen
    refine ⟨news' ++ news, by rw [hevents', hevents, List.append_assoc], fun e he hpass => ?_⟩
    rcases List.mem_append.1 he with he | he
    · obtain ⟨number, hup, hwork⟩ := hnews' e he hpass
      exact ⟨number, h.wasUp hup, hwork⟩
    · obtain ⟨number, hup, seat, hseat, hname⟩ := hnews e he hpass
      obtain ⟨seat', hseat', hbecomes⟩ := h'.stays hseat
      exact ⟨number, hup, seat', hseat', fun name he => hbecomes.name.trans (hname name he)⟩

/-- Nothing was seen since. -/
theorem of_stays (hevents : h₂.state.events = h₁.state.events)
    (hstays : ∀ {number seat}, h₁.state.managers.get? number = some seat →
      ∃ seat', h₂.state.managers.get? number = some seat' ∧ seat.Becomes seat') : Since h₁ h₂ :=
  ⟨hstays, [], hevents, fun _ => nofun⟩

theorem same (hmanagers : h₂.state.managers = h₁.state.managers)
    (hevents : h₂.state.events = h₁.state.events) : Since h₁ h₂ :=
  .of_stays hevents fun hseat => ⟨_, hmanagers ▸ hseat, .refl _⟩

/-- A seat was changed, if there was one. -/
theorem update (h : Host S) {number : Nat} {f : ManagerSeat S → ManagerSeat S}
    (hf : ∀ seat, h.state.managers.get? number = some seat → seat.Becomes (f seat)) :
    Since h { h with state := { h.state with managers := h.state.managers.update number f } } := by
  refine .of_stays rfl fun {other seat} hseat => ?_
  by_cases hother : other = number
  · subst hother
    exact ⟨f seat, Roster.get?_update_of_some hseat f, hf seat hseat⟩
  · exact ⟨seat, (Roster.get?_update_of_ne _ f hother).trans hseat, .refl _⟩

/-- Something was seen, and if it is part of a pass it is the work of a manager that was up. -/
theorem see {h : Host S} (hsince : Since h₁ h) {e : Event S}
    (hwork : e.isOfPass = true →
      ∃ number, IsWorkOf h₁.state.managers h.state.managers number e) :
    Since h₁ { h with state := { h.state with events := e :: h.state.events } } := by
  obtain ⟨news, hevents, hnews⟩ := hsince.seen
  refine ⟨hsince.stays, e :: news, congrArg (e :: ·) hevents, fun e' he' hpass => ?_⟩
  rcases List.mem_cons.1 he' with rfl | he'
  · exact hwork hpass
  · exact hnews e' he' hpass

end Since

/-- **What is done with managers and beside them leaves alone what was shut down**, and none of
it looks like a pass. -/
theorem passing_since (base : Host S) : Passing (Since base) (Since base) where
  halted _ hh := hh
  same hmanagers _ hevents hh := hh.trans (.same hmanagers hevents)
  haltedSame hmanagers _ hevents hh := hh.trans (.same hmanagers hevents)
  see he _ hh := hh.see fun hpass => absurd (hpass.symm.trans he) Bool.noConfusion
  evolve hh hf := hh.trans (.update _ fun seat hseat => (hf seat hseat).becomes)
  misreport hh hseat id old new := hh.trans (.update _ fun seat' hseat' => by
    obtain rfl := Option.some.inj (hseat.symm.trans hseat')
    exact ⟨rfl, Manager.hasSealed_report _ id old new⟩)
  enroll {h} hh owner _ _ := hh.trans (.of_stays rfl fun hseat =>
    ⟨_, (Roster.gains_enroll h.state.managers owner.name _).get?_of_some hseat, .refl _⟩)
  forget hh name := hh.trans (.of_stays rfl fun hseat =>
    ⟨_, (Roster.get?_forget _ name _).trans hseat, .refl _⟩)
  restub hh _ := hh.trans (.same rfl rfl)
  grant hh _ _ := hh.trans (.same rfl rfl)
  publish hh hseat hup b _ plan _ := hh.trans (.update _ fun seat' hseat' => by
    obtain rfl := Option.some.inj (hseat.symm.trans hseat')
    exact ⟨rfl, Manager.hasSealed_publish hup b.total plan⟩)

/-- **So does every pass.** If the manager was shut down there is nothing to be seen of it, and
else all of it is the work of a manager that was up when the pass started. -/
theorem preserves_manage_since {run : S → Act S Unit}
    (hrun : ∀ base script, (run script).Preserves (Since base) (Since base)) (base : Host S)
    (number : Nat) : (manage run number).Preserves (Since base) (Since base) := by
  intro h hh
  -- what happens from the start of the pass is looked at from there
  have hpass : (manage run number).Ends h (fun _ => Since h) fun _ => Since h := by
    refine (passing_since h).enduring.manage_of (.refl h) fun seat hseat hup hcleared => ?_
    have hwasUp : WasUp h.state.managers number := fun seat' hseat' => by
      rw [Option.some.inj (hseat'.symm.trans hseat)]
      exact hup
    -- the manager is still there when something is seen of it
    have hthere {h' : Host S} (hsince : Since h h') : ∃ seat',
        h'.state.managers.get? number = some seat' ∧ seat'.owner.name = seat.owner.name := by
      obtain ⟨seat', hseat', hbecomes⟩ := hsince.stays hseat
      exact ⟨seat', hseat', hbecomes.name⟩
    refine ((passing_since h).passStable (fun e he h' hsince => hsince.see fun _ => ?_)
      (hrun h)).manage hseat (fun _ => hcleared) (fun _ => hcleared.see fun _ => ?_) (.refl h)
    · obtain ⟨seat', hseat', -⟩ := hthere hsince
      refine ⟨number, hwasUp, seat', hseat', fun name hname => ?_⟩
      rw [hname] at he
      exact Bool.noConfusion he
    · obtain ⟨seat', hseat', hname'⟩ := hthere hcleared
      refine ⟨number, hwasUp, seat', hseat', fun name hname => ?_⟩
      cases hname
      exact hname'
  exact hpass.imp (fun _ _ hlater => hh.trans hlater) fun _ _ hlater => hh.trans hlater

end Host

end Compositor
