import Compositor.Proofs.Host.Enduring

/-!
# What goes on beside the managers

Limiters, registries, scrollbars, proxies and guarded tasks know nothing of managers or stubs,
and nothing of what they do looks to the observer like the work of a manager. Whatever is true
of the managers and stubs of a host, and of the passes that were seen, is still true after anything
that is done with these, and also if it is halted (`Beside`), provided that the scripts
preserve it that are called back meanwhile.
-/

namespace Compositor

namespace Host

open Compositor.Action

variable {S : Type}

/-- **The property looks at nothing on a host but the managers, their stubs and what was seen of
passes.** The other one, which is left of it when an action is halted, does so too. -/
structure Beside (P E : Host S → Prop) : Prop where
  halted (h : Host S) (hP : P h) : E h
  same {h h' : Host S} (hmanagers : h'.state.managers = h.state.managers)
    (hstubs : h'.state.stubs = h.state.stubs) (hevents : h'.state.events = h.state.events)
    (hP : P h) : P h'
  haltedSame {h h' : Host S} (hmanagers : h'.state.managers = h.state.managers)
    (hstubs : h'.state.stubs = h.state.stubs) (hevents : h'.state.events = h.state.events)
    (hE : E h) : E h'
  see {e : Event S} (he : e.isOfPass = false) (h : Host S) (hP : P h) :
    P { h with state := { h.state with events := e :: h.state.events } }

/-- Something is true of the managers of a host. -/
def OnManagers (R : Roster (ManagerSeat S) → Prop) (h : Host S) : Prop := R h.state.managers

theorem beside_onManagers {R : Roster (ManagerSeat S) → Prop} :
    Beside (OnManagers R) fun _ => True where
  halted _ _ := trivial
  same hmanagers _ _ hP := by
    unfold OnManagers
    rw [hmanagers]
    exact hP
  haltedSame _ _ _ _ := trivial
  see _ _ hP := hP

/-- The same where an action is halted. -/
theorem beside_managers {R : Roster (ManagerSeat S) → Prop} :
    Beside (OnManagers R) (OnManagers R) where
  halted _ hP := hP
  same := beside_onManagers.same
  haltedSame := beside_onManagers.same
  see _ _ hP := hP

namespace Beside

variable {P E : Host S → Prop} (hP : Beside P E)

include hP

/-- Nothing changed that is looked at. -/
theorem unseen {h h' : Host S} (hh : P h)
    (hmanagers : h'.state.managers = h.state.managers := by rfl)
    (hstubs : h'.state.stubs = h.state.stubs := by rfl)
    (hevents : h'.state.events = h.state.events := by rfl) : P h' :=
  hP.same hmanagers hstubs hevents hh

theorem emit {e : Event S} (he : e.isOfPass = false) : (emit e : Act S Unit).Preserves P E :=
  preserves_change (hP.see he)

theorem holding {α : Type} (objects : List InUse) {a : Act S α} (ha : a.Preserves P E) :
    (holding objects a).Preserves P E :=
  preserves_holding objects ha (fun _ _ hh => hP.unseen hh) fun _ _ => hP.haltedSame rfl rfl rfl

theorem postVia (proxy : Nat) (task : Task S) (delay : Nanos) :
    (postVia proxy task delay).Preserves P E :=
  fun h hh => ends_post_cases (fun _ _ => hP.unseen hh) hh fun _ => hP.halted h hh

theorem shutdownProxy (proxy : Nat) : (shutdownProxy proxy : Act S Unit).Preserves P E :=
  preserves_shutdownProxy hP.halted fun _ _ _ hh _ => hP.unseen hh

theorem postCheck (number : Nat) (delay : Nanos) :
    (postCheck number delay : Act S Unit).Preserves P E := by
  refine preserves_residents.bind fun r => ?_
  split
  · exact .pure _
  · exact (hP.postVia _ _ _).map _

/-! ## What calls back -/

section Callbacks

variable {run : S → Act S Unit} (hrun : ∀ script, (run script).Preserves P E)

include hrun

theorem limitNow (number : Nat) : (limitNow run number).Preserves P E :=
  preserves_limitNow
    (fun _ => preserves_callTargets hP.holding (fun h _ hh _ => hP.see rfl h hh)
      (fun h _ hh _ => hP.see rfl h hh) hrun)
    (preserves_change fun _ hh => hP.unseen hh)

theorem runCheck (number : Nat) : (runCheck run number).Preserves P E :=
  preserves_runCheck (hP.limitNow hrun number) (hP.postCheck number)

theorem runFrame (fade : Fade S) : (runFrame run fade).Preserves P E :=
  preserves_runFrame hrun
    (preserves_animate hP.halted fun _ _ _ hh _ => hP.unseen hh)
    (fun _ _ => hP.emit rfl) (hP.postVia _ _ _)

end Callbacks

end Beside

end Host

end Compositor
