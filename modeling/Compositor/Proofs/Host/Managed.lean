import Compositor.Proofs.Host.Beside

/-!
# What a host does with its managers

Apart from passes, all that a host does with a manager comes down to single changes of it,
to changes of what its owner enumerates, and to posting. So a property is preserved by each
of the operations as soon as it survives these, and stubs that come or are edited
(`Managed`). Only a report that faults may leave books behind that no entry accounts for; of
those nothing has to be true but what is true of a halted action.

A pass does more: it grants memory to stubs, and keeps the outcome. A property that survives
this too is preserved by passes (`Passing`).
-/

namespace Compositor

namespace Host

open Compositor.Action

variable {S : Type}

/-- **The property survives whatever single change is made to the managers of a host**, other than
by a pass, or to their stubs, beside what goes on there. -/
structure Managed (P E : Host S → Prop) : Prop extends Beside P E where
  evolve {h : Host S} {number : Nat} {f : ManagerSeat S → ManagerSeat S} (hP : P h)
    (hf : ∀ seat, h.state.managers.get? number = some seat → seat.Evolves (f seat)) :
    P { h with state := { h.state with managers := h.state.managers.update number f } }
  misreport {h : Host S} {number : Nat} {seat : ManagerSeat S} (hP : P h)
    (hseat : h.state.managers.get? number = some seat) (id : GroupId) (old new : Nat) :
    E { h with state := { h.state with managers := h.state.managers.update number fun s =>
      { s with manager := (seat.manager.report id old new).2 } } }
  enroll {h : Host S} (hP : P h) (owner : StubOwner S) (config : Config) (proxy : Nat) :
    P { h with state := { h.state with managers := (h.state.managers.enroll owner.name
      { manager := Manager.ofConfig h.state.platform config, owner, proxy }).2 } }
  forget {h : Host S} (hP : P h) (name : String) :
    P { h with state := { h.state with managers := h.state.managers.forget name } }
  restub {h : Host S} {stubs : Roster (StubRecord S)} (hP : P h)
    (hstubs : h.state.stubs.Restubs stubs) : P { h with state := { h.state with stubs } }

/-- **The property survives what passes do**, too: a stub is granted memory, and a manager that is
up keeps what came of the pass. -/
structure Passing (P E : Host S → Prop) : Prop extends Managed P E where
  grant {h : Host S} (hP : P h) (id : StubId) (allocation : Allocation) :
    P { h with state := { h.state with
      stubs := h.state.stubs.update id fun s => { s with allocation } } }
  publish {h : Host S} {number : Nat} {seat : ManagerSeat S} (hP : P h)
    (hseat : h.state.managers.get? number = some seat) (hup : seat.manager.shutDown = false)
    {b : Bounds} {views : List StubView} {plan : Plan} (hplan : Plan.ofStubs b views = .ok plan) :
    P { h with state := { h.state with managers := h.state.managers.update number fun s =>
      { s with manager := s.manager.publish b.total plan } } }

namespace Managed

variable {P E : Host S → Prop} (hP : Managed P E)

include hP

/-- What survives these changes endures every single change, since it looks at nothing else. -/
theorem enduring : Enduring P E where
  halted := hP.halted
  aside hh hsame := hP.same (congrArg Facets.managers hsame) (congrArg Facets.stubs hsame)
    (congrArg Facets.events hsame) hh
  haltedAside hE hsame := hP.haltedSame (congrArg Facets.managers hsame)
    (congrArg Facets.stubs hsame) (congrArg Facets.events hsame) hE
  seen hh _ hpass _ _ := hP.see hpass _ hh
  posted hh _ _ _ _ := hP.unseen hh
  kept hh _ _ _ := hP.unseen hh
  released hh _ := hP.unseen hh
  gated hh _ := hP.unseen hh
  barMade hh _ _ := hP.unseen hh
  painted hh _ _ _ _ := hP.unseen hh
  started hh _ _ _ _ := hP.unseen hh
  startedPosting hh _ _ _ _ _ := hP.unseen hh
  stopped hh _ := hP.unseen hh
  made hh _ _ _ _ := hP.unseen hh
  unnamed hh _ := hP.unseen hh
  contextMade hh _ _ := hP.unseen hh
  contextDropped hh _ := hP.unseen hh
  clientMade hh _ _ := hP.unseen hh
  clientDropped hh _ := hP.unseen hh
  evolved := hP.evolve
  misreported := hP.misreport
  managerMade := hP.enroll
  managerDropped := hP.forget
  restubbed := hP.restub
  fadeSeen hh _ _ _ := hP.see rfl _ hh
  framePosted hh _ _ _ := hP.unseen hh
  barChanged hh _ _ := hP.unseen hh
  moved hh _ _ _ := hP.unseen hh
  taken hh _ _ _ := hP.unseen hh
  cleared hh := hP.unseen hh
  accepts hh _ := hP.unseen hh

/-- What calls back preserves it, as soon as passes do and the scripts that are run. -/
theorem callsBack {run : S → Act S Unit} (hrun : ∀ script, (run script).Preserves P E)
    (hmanage : ∀ number, (Host.manage run number).Preserves P E) : CallsBack run P E where
  manage := hmanage
  limitNow := hP.limitNow hrun
  due hh _ := hP.enduring.runTask hrun hmanage (fun number _ => hP.runCheck hrun number) _
    (hP.unseen hh)
  held hh _ := hP.enduring.runTask hrun hmanage (fun number _ => hP.runCheck hrun number) _
    (hP.unseen hh)

end Managed

namespace Passing

variable {P E : Host S → Prop} (hP : Passing P E) {run : S → Act S Unit}

include hP

/-- What survives single changes survives a pass that has started, if whatever is seen of it does
no harm. -/
theorem passStable (hsee : ∀ e : Event S, e.isEnumerate = false → (emit e).Preserves P E)
    (hrun : ∀ script, (run script).Preserves P E) : PassStable run (fun _ => True) P E where
  halted := hP.halted
  emit he _ _ := hsee _ he
  run _ := hrun _
  onEnumerate _ _ := trivial
  onRequest _ _ := trivial
  onGrant _ _ := trivial
  grant id allocation := preserves_change fun _ hh => hP.grant hh id allocation
  count _ _ hh := hP.enduring.changeManager hh fun _ _ => .count
  publish hh hseat hup _ _ _ hplan := hP.publish hh hseat hup hplan

/-- **What does not look at what was seen is preserved by every pass.** -/
theorem manage (hsee : ∀ e : Event S, (emit e).Preserves P E)
    (hrun : ∀ script, (run script).Preserves P E) (number : Nat) :
    (manage run number).Preserves P E := fun h hh =>
  hP.enduring.manage_of hh fun seat hseat _ hcleared =>
    (hP.passStable (fun e _ => hsee e) hrun).manage hseat (fun _ => hcleared)
      (fun _ => hsee (.enumerate seat.owner.name) _ hcleared) (hP.halted h hh)

end Passing

end Host

end Compositor
