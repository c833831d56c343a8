import Compositor.Proofs.Budget.Showing
import Compositor.Proofs.Host.Coalescing
import Compositor.Proofs.Host.Granting
import Compositor.Proofs.Host.Managed

/-!
# What is published is what was pushed

A pass keeps its outcome with the manager and then hands it out, stub by stub, and each stub
may do what it likes when it is granted memory. What it likes may be another pass, of the same
manager or of another: then the manager shows what came of that one, and the stubs that the
first pass comes to afterwards are granted what it has for them, which need not be the same.

So what a host grants and publishes is followed from one moment to another *unless a pass
begins* (`Granted`): what an embedder does otherwise, from within callbacks or not, leaves
both alone (`Quiet`). If no pass begins while another hands out its plan, the memory that the
stubs were granted last is what the manager shows.

That what was charged stays within the total holds throughout, since every manager shows a
plan over its total, or nothing yet (`Solvent`).
-/

namespace Compositor

theorem ManagerSeat.Evolves.published {S : Type} {s s' : ManagerSeat S} (h : s.Evolves s') :
    s'.manager.published = s.manager.published := by
  cases h with
  | manager hm => exact hm.published
  | edit => rfl

namespace Host

open Compositor.Action

variable {S : Type}

/-! ## Granted, unless a pass begins -/

/-- **What was granted meanwhile**, and nothing else: the given stubs were granted what is given
with them, the others have what they had, and the managers show what they showed. -/
structure Leaves (given : List (StubId × Assignment)) (base h : Host S) : Prop where
  pushed {id : StubId} {a : Assignment} (hgiven : (id, a) ∈ given) :
    ∃ stub, h.state.stubs.get? id = some stub ∧ stub.allocation = a.allocation
  kept {id : StubId} {stub : StubRecord S} (hother : id ∉ given.map Prod.fst)
    (hstub : base.state.stubs.get? id = some stub) :
    ∃ stub', h.state.stubs.get? id = some stub' ∧ stub'.allocation = stub.allocation
  published {number : Nat} {seat : ManagerSeat S}
    (hseat : base.state.managers.get? number = some seat) :
    ∃ seat', h.state.managers.get? number = some seat' ∧
      seat'.manager.published = seat.manager.published

/-- The same, unless a pass has begun. No stub is ever gone. -/
structure Granted (given : List (StubId × Assignment)) (base h : Host S) : Prop where
  begun_le : base.begun ≤ h.begun
  stubs_le : base.state.stubs.members.length ≤ h.state.stubs.members.length
  leaves (hquiet : h.begun = base.begun) : Leaves given base h

/-- Nothing was granted or published, unless a pass has begun. -/
abbrev Quiet (base h : Host S) : Prop := Granted [] base h

namespace Granted

variable {given given' : List (StubId × Assignment)} {base h h' : Host S}

/-- What is granted first and then, to other stubs, is granted in the end. -/
theorem trans (hfirst : Granted given base h) (hthen : Granted given' h h')
    (hothers : ∀ id ∈ given.map Prod.fst, id ∉ given'.map Prod.fst) :
    Granted (given ++ given') base h' := by
  refine ⟨hfirst.begun_le.trans hthen.begun_le, hfirst.stubs_le.trans hthen.stubs_le,
    fun hquiet => ?_⟩
  have hbegun := hfirst.begun_le
  have hbegun' := hthen.begun_le
  have hL := hfirst.leaves (by omega)
  have hL' := hthen.leaves (by omega)
  refine ⟨fun {id a} hgiven => ?_, fun {id stub} hother hstub => ?_, fun hseat => ?_⟩
  · rcases List.mem_append.1 hgiven with hgiven | hgiven
    · obtain ⟨stub, hstub, hallocation⟩ := hL.pushed hgiven
      have hother := hothers id (List.mem_map_of_mem (f := Prod.fst) hgiven)
      obtain ⟨stub', hstub', hkept⟩ := hL'.kept hother hstub
      exact ⟨stub', hstub', hkept.trans hallocation⟩
    · exact hL'.pushed hgiven
  · rw [List.map_append, List.mem_append, not_or] at hother
    obtain ⟨stub', hstub', hkept⟩ := hL.kept hother.1 hstub
    obtain ⟨stub'', hstub'', hkept'⟩ := hL'.kept hother.2 hstub'
    exact ⟨stub'', hstub'', hkept'.trans hkept⟩
  · obtain ⟨seat', hseat', hkept⟩ := hL.published hseat
    obtain ⟨seat'', hseat'', hkept'⟩ := hL'.published hseat'
    exact ⟨seat'', hseat'', hkept'.trans hkept⟩

/-- Nothing more is granted then. -/
theorem trans_quiet (hfirst : Granted given base h) (hthen : Quiet h h') :
    Granted given base h' := by
  have hboth := hfirst.trans hthen fun _ _ => List.not_mem_nil
  rwa [List.append_nil] at hboth

end Granted

namespace Quiet

variable {base h h' : Host S}

theorem refl (h : Host S) : Quiet h h :=
  ⟨Nat.le_refl _, Nat.le_refl _, fun _ => ⟨nofun, fun _ hstub => ⟨_, hstub, rfl⟩,
    fun hseat => ⟨_, hseat, rfl⟩⟩⟩

theorem trans (hfirst : Quiet base h) (hthen : Quiet h h') : Quiet base h' :=
  Granted.trans_quiet hfirst hthen

/-- Once a pass has begun there is nothing more to be said. -/
theorem of_lt (hbegun : base.begun < h.begun)
    (hstubs : base.state.stubs.members.length ≤ h.state.stubs.members.length) : Quiet base h :=
  ⟨hbegun.le, hstubs, fun hquiet => absurd hquiet hbegun.ne'⟩

/-- The managers changed in what they do not show. -/
theorem of_managers (hstubs : h'.state.stubs = h.state.stubs) (hbegun : h'.begun = h.begun)
    (hmanagers : ∀ {number seat}, h.state.managers.get? number = some seat →
      ∃ seat', h'.state.managers.get? number = some seat' ∧
        seat'.manager.published = seat.manager.published) : Quiet h h' :=
  ⟨hbegun.ge, by rw [hstubs], fun _ => ⟨nofun, fun _ hstub => ⟨_, hstubs ▸ hstub, rfl⟩,
    hmanagers⟩⟩

/-- Something was seen that does not start a pass. -/
theorem see {e : Event S} (he : e.isEnumerate = false) :
    Quiet h { h with state := { h.state with events := e :: h.state.events } } :=
  .of_managers rfl (begun_see he) fun hseat => ⟨_, hseat, rfl⟩

theorem same (hmanagers : h'.state.managers = h.state.managers)
    (hstubs : h'.state.stubs = h.state.stubs) (hevents : h'.state.events = h.state.events) :
    Quiet h h' :=
  .of_managers hstubs (congrArg (List.countP _) hevents) fun hseat => ⟨_, hmanagers ▸ hseat, rfl⟩

/-- A seat was changed, if there was one, in what its manager does not show. -/
theorem update (h : Host S) {number : Nat} {f : ManagerSeat S → ManagerSeat S}
    (hf : ∀ seat, h.state.managers.get? number = some seat →
      (f seat).manager.published = seat.manager.published) :
    Quiet h { h with state := { h.state with managers := h.state.managers.update number f } } := by
  refine .of_managers rfl rfl fun {other seat} hseat => ?_
  by_cases hother : other = number
  · subst hother
    exact ⟨f seat, Roster.get?_update_of_some hseat f, hf seat hseat⟩
  · exact ⟨seat, (Roster.get?_update_of_ne _ f hother).trans hseat, rfl⟩

/-- Stubs that come or are edited leave what the others have been granted. -/
theorem restub {stubs : Roster (StubRecord S)} (hstubs : h.state.stubs.Restubs stubs) :
    Quiet h { h with state := { h.state with stubs } } := by
  refine ⟨Nat.le_refl _, ?_, fun _ => ⟨nofun, fun {id stub} _ hstub => ?_,
    fun hseat => ⟨_, hseat, rfl⟩⟩⟩
  · cases hstubs with
    | enroll => exact (Roster.gains_enroll ..).length_le
    | edit => exact (Roster.length_update ..).ge
  · cases hstubs with
    | enroll => exact ⟨stub, (Roster.gains_enroll ..).get?_of_some hstub, rfl⟩
    | edit number edit =>
      by_cases hid : id = number
      · subst hid
        exact ⟨editStub edit stub, Roster.get?_update_of_some hstub _, rfl⟩
      · exact ⟨stub, (Roster.get?_update_of_ne _ _ hid).trans hstub, rfl⟩

end Quiet

/-- **Nothing that is done with managers and beside them grants or publishes anything**: what does
not mind that is preserved by all of it. -/
theorem managed_of_quiet {P E : Host S → Prop} (hP : ∀ {h h'}, P h → Quiet h h' → P h')
    (hE : ∀ {h h'}, E h → Quiet h h' → E h') (halted : ∀ h, P h → E h) : Managed P E where
  halted
  same hmanagers hstubs hevents hh := hP hh (.same hmanagers hstubs hevents)
  haltedSame hmanagers hstubs hevents hh := hE hh (.same hmanagers hstubs hevents)
  see he _ hh := hP hh (.see (Event.isEnumerate_of_isOfPass he))
  evolve hh hf := hP hh (.update _ fun seat hseat => (hf seat hseat).published)
  misreport hh hseat id old new := hE (halted _ hh) (.update _ fun seat' hseat' => by
    obtain rfl := Option.some.inj (hseat.symm.trans hseat')
    exact Manager.published_report _ id old new)
  enroll {h} hh owner _ _ := hP hh (.of_managers rfl rfl fun hseat =>
    ⟨_, (Roster.gains_enroll h.state.managers owner.name _).get?_of_some hseat, rfl⟩)
  forget hh name := hP hh (.of_managers rfl rfl fun hseat =>
    ⟨_, (Roster.get?_forget _ name _).trans hseat, rfl⟩)
  restub hh hstubs := hP hh (.restub hstubs)

theorem managed_quiet (base : Host S) : Managed (Quiet base) (Quiet base) :=
  managed_of_quiet .trans .trans fun _ => id

/-! ## Passes -/

/-- A pass has begun since, and no stub is gone. -/
structure Overtaken (base h : Host S) : Prop where
  begun_lt : base.begun < h.begun
  stubs_le : base.state.stubs.members.length ≤ h.state.stubs.members.length

theorem Overtaken.quiet {base h : Host S} (hh : Overtaken base h) : Quiet base h :=
  .of_lt hh.begun_lt hh.stubs_le

theorem Overtaken.trans_quiet {base h h' : Host S} (hh : Overtaken base h) (hthen : Quiet h h') :
    Overtaken base h' :=
  ⟨hh.begun_lt.trans_le hthen.begun_le, hh.stubs_le.trans hthen.stubs_le⟩

/-- A pass that has begun may grant and publish what it likes. -/
theorem passing_overtaken (base : Host S) : Passing (Overtaken base) (Quiet base) where
  toManaged := managed_of_quiet Overtaken.trans_quiet .trans fun _ => Overtaken.quiet
  grant hh _ _ := ⟨hh.begun_lt, hh.stubs_le.trans (Roster.length_update ..).ge⟩
  publish hh _ _ _ _ _ _ := ⟨hh.begun_lt, hh.stubs_le⟩

/-- **A pass grants and publishes nothing before it has begun**, and nor does anything else. -/
theorem preserves_manage_quiet {run : S → Act S Unit}
    (hrun : ∀ base script, (run script).Preserves (Quiet base) (Quiet base)) (base : Host S)
    (number : Nat) : (manage run number).Preserves (Quiet base) (Quiet base) := by
  intro h hh
  refine (managed_quiet base).enduring.manage_of hh fun seat hseat hup hcleared => ?_
  -- what a script leaves alone unless a pass begins does not matter once one has begun
  have hscript (script : S) : (run script).Preserves (Overtaken base) (Quiet base) :=
    fun h₁ hh₁ => (hrun h₁ script h₁ (.refl h₁)).imp (fun _ _ => hh₁.trans_quiet)
      fun _ _ => hh₁.quiet.trans
  have hpass := (passing_overtaken base).passStable
    (fun e he => preserves_change fun _ hh₁ => hh₁.trans_quiet (.see he)) hscript
  have hstarted : Overtaken base (started h number seat) := by
    have hbegun : (started h number seat).begun = (cleared h number seat).begun + 1 :=
      List.countP_cons_of_pos rfl
    exact ⟨hbegun ▸ Nat.lt_succ_of_le hcleared.begun_le, hcleared.stubs_le⟩
  exact (hpass.manage hseat (fun hdown => absurd (hdown.symm.trans hup) Bool.noConfusion)
    (fun _ => hstarted) hh).imp (fun _ _ => Overtaken.quiet) fun _ _ => id

/-! ## Handing out -/

/-- A stub is granted memory before it is called back. -/
theorem granted_update {h : Host S} {id : StubId} {stub : StubRecord S}
    (hstub : h.state.stubs.get? id = some stub) (a : Assignment) :
    Granted [(id, a)] h { h with state := { h.state with
      stubs := h.state.stubs.update id fun s => { s with allocation := a.allocation } } } := by
  refine ⟨Nat.le_refl _, (Roster.length_update ..).ge, fun _ => ⟨fun hgiven => ?_,
    fun hother hstub' => ?_, fun hseat => ⟨_, hseat, rfl⟩⟩⟩
  · cases List.mem_singleton.1 hgiven
    exact ⟨_, Roster.get?_update_of_some hstub _, rfl⟩
  · have hne := fun heq => hother (List.mem_singleton.2 heq)
    exact ⟨_, (Roster.get?_update_of_ne _ _ hne).trans hstub', rfl⟩

/-- **Handing out memory to distinct stubs** grants each of them what is for it, unless a pass
begins. -/
theorem ends_grants {run : S → Act S Unit}
    (hrun : ∀ base script, (run script).Preserves (Quiet base) (Quiet base))
    {given : List (StubId × Assignment)} (hids : (given.map Prod.fst).Nodup) {h : Host S}
    (hthere : ∀ id ∈ given.map Prod.fst, id < h.state.stubs.members.length) :
    (given.forM fun (id, a) => grantStub run id a.allocation : Act S PUnit).Ends h
      (fun _ => Granted given h) fun _ _ => True := by
  induction given generalizing h with
  | nil => exact Quiet.refl h
  | cons first rest ih =>
    obtain ⟨id, a⟩ := first
    obtain ⟨hnot, hrest⟩ := List.nodup_cons.1 hids
    obtain ⟨stub, hstub⟩ : ∃ stub, h.state.stubs.get? id = some stub :=
      ⟨_, List.getElem?_eq_getElem (hthere id (List.mem_cons_self ..))⟩
    have hfirst : (grantStub run id a.allocation).Ends h (fun _ => Granted [(id, a)] h)
        fun _ _ => True := by
      unfold grantStub
      simp only [ends_bind, ends_residents, hstub, ends_change, ends_emit]
      refine (hrun _ _ _ (.refl _)).imp (fun _ h' hquiet => ?_) fun _ _ _ => trivial
      have hseen := (granted_update hstub a).trans_quiet
        (.see (e := .grant stub.name a.allocation) rfl)
      exact hseen.trans_quiet hquiet
    refine (ends_bind (grantStub run id a.allocation) _).2
      (hfirst.imp (fun _ h₁ hh₁ => ?_) fun _ _ _ => trivial)
    refine (ih hrest fun other hother => ?_).imp (fun _ h' hh' => ?_) fun _ _ _ => trivial
    · exact (hthere other (List.mem_cons_of_mem _ hother)).trans_le hh₁.stubs_le
    · refine hh₁.trans hh' fun other hother => ?_
      rw [List.mem_singleton.1 hother]
      exact hnot

/-! ## Within the total -/

/-- **What every manager shows was charged stays within the total that it shows**, and the names of
the stubs are in order. -/
structure Solvent (h : Host S) : Prop where
  stubs : h.state.stubs.Sound
  charged {number : Nat} {seat : ManagerSeat S}
    (hseat : h.state.managers.get? number = some seat) :
    seat.manager.lastBreakdown.visibleBytes + seat.manager.lastBreakdown.hiddenBytes
      ≤ seat.manager.available

namespace Solvent

variable {h h' : Host S}

theorem new (runner : String) (platform : Platform) :
    Solvent (Host.new runner platform : Host S) := ⟨.empty, nofun⟩

/-- A seat was changed, if there was one, and what it shows is within its total. -/
theorem update (hh : Solvent h) {number : Nat} {f : ManagerSeat S → ManagerSeat S}
    (hf : ∀ seat, h.state.managers.get? number = some seat →
      (f seat).manager.lastBreakdown.visibleBytes + (f seat).manager.lastBreakdown.hiddenBytes
        ≤ (f seat).manager.available) :
    Solvent { h with state := { h.state with managers := h.state.managers.update number f } } := by
  refine ⟨hh.stubs, fun hseat' => ?_⟩
  rcases Roster.get?_update_eq_some hseat' with ⟨rfl, seat, hseat, rfl⟩ | ⟨-, hseat⟩
  · exact hf seat hseat
  · exact hh.charged hseat

theorem same (hh : Solvent h) (hmanagers : h'.state.managers = h.state.managers)
    (hstubs : h'.state.stubs = h.state.stubs) : Solvent h' :=
  ⟨hstubs ▸ hh.stubs, fun hseat => hh.charged (hmanagers ▸ hseat)⟩

end Solvent

/-- What is shown stays within the total if it is shown as it was. -/
theorem charged_of_published {m m' : Manager} (hpublished : m'.published = m.published)
    (hm : m.lastBreakdown.visibleBytes + m.lastBreakdown.hiddenBytes ≤ m.available) :
    m'.lastBreakdown.visibleBytes + m'.lastBreakdown.hiddenBytes ≤ m'.available := by
  obtain ⟨havailable, -, hbreakdown⟩ : _ ∧ _ ∧ _ := by
    simpa only [Manager.published, Prod.mk.injEq] using hpublished
  rw [havailable, hbreakdown]
  exact hm

/-- **Whatever is done, every manager stays within its total.** -/
theorem passing_solvent : Passing (Solvent : Host S → Prop) Solvent where
  halted _ hh := hh
  same hmanagers hstubs _ hh := hh.same hmanagers hstubs
  haltedSame hmanagers hstubs _ hh := hh.same hmanagers hstubs
  see _ _ hh := hh.same rfl rfl
  evolve hh hf := hh.update fun seat hseat =>
    charged_of_published (hf seat hseat).published (hh.charged hseat)
  misreport hh hseat id old new := hh.update fun seat' hseat' => by
    obtain rfl := Option.some.inj (hseat.symm.trans hseat')
    exact charged_of_published (Manager.published_report _ id old new) (hh.charged hseat)
  enroll {h} hh owner config proxy := ⟨hh.stubs, fun hseat => by
    rcases (Roster.gains_enroll h.state.managers owner.name _).get?_eq_some hseat
      with hold | ⟨-, rfl⟩
    · exact hh.charged hold
    · exact Nat.zero_le _⟩
  forget hh name := ⟨hh.stubs, fun hseat =>
    hh.charged ((Roster.get?_forget _ name _).symm.trans hseat)⟩
  restub hh hstubs := by
    refine ⟨?_, hh.charged⟩
    cases hstubs with
    | enroll => exact hh.stubs.enroll _ _
    | edit => exact hh.stubs.update _ _
  grant hh _ _ := ⟨hh.stubs.update _ _, hh.charged⟩
  publish hh _ _ b views plan hplan := hh.update fun _ _ => (Plan.Divides.of_ok hplan).charged_le

/-! ## A pass that ran to its end -/

/-- The total that a pass divides, when its stubs have been listed: what was fixed when it began,
else what the driver reports by then if that is not zero, else what the platform assumes. -/
def passTotal (seat : ManagerSeat S) (number : Nat) (listed : Host S) : Nat :=
  Manager.resolveTotal seat.manager.fixedTotal
    (((listed.state.managers.get? number).map fun s => s.owner.driverTotal).getD none)
    seat.manager.limits

theorem passTotal_eq (seat : ManagerSeat S) (number : Nat) (listed : Host S) :
    passTotal seat number listed = (seat.manager.fixedTotal <|>
      ((listed.state.managers.get? number).bind fun s => s.owner.driverTotal).filter
        fun total => 0 < total).getD seat.manager.limits.defaultTotal := by
  unfold passTotal Manager.resolveTotal
  cases seat.manager.fixedTotal with
  | some total => rfl
  | none =>
    cases hfound : listed.state.managers.get? number with
    | none => rfl
    | some found =>
      cases htotal : found.owner.driverTotal with
      | none => simp [htotal]
      | some total =>
        by_cases hpos : 0 < total <;> simp [htotal, hpos, Option.filter]

/-- The host when a pass has been counted and its outcome is kept. -/
def outcomeKept (planned : Host S) (number total : Nat) (plan : Plan) : Host S :=
  { planned with state := { planned.state with
    managers := (planned.state.managers.update number fun s =>
      { s with manager := { s.manager with passes := s.manager.passes + 1 } }).update number
        fun s => { s with manager := s.manager.publish total plan } } }

/-- **What a pass went through that ran to its end.** Its stubs were listed, a plan was made for
them, and if the manager was not shut down until then, its outcome was kept and handed out. -/
theorem exists_of_manage {run : S → Act S Unit} {number : Nat} {h h' : Host S}
    {seat : ManagerSeat S} (hseat : h.state.managers.get? number = some seat)
    (hup : seat.manager.shutDown = false) (hon : (manage run number).on h = (.ok (), h')) :
    ∃ ids listed plan planned,
      (enumerate run number).on (cleared h number seat) = (.ok ids, listed) ∧
      (planPass run (seat.manager.bounds (passTotal seat number listed)) ids).on listed
        = (.ok plan, planned) ∧
      ∀ seat₁, planned.state.managers.get? number = some seat₁ →
        seat₁.manager.shutDown = false →
          ((ids.zip plan.assignments).forM fun (id, a) => grantStub run id a.allocation).on
            (outcomeKept planned number (passTotal seat number listed) plan) = (.ok (), h') := by
  have hends := on_eq_ok_iff.1 hon
  have hup' : (seat.manager.clearWaiting h.state.handles).1.shutDown = false := hup
  unfold manage at hends
  simp only [ends_bind, ends_requireThread, ends_seat?, hseat, ends_residents, ends_keep, hup',
    Bool.false_eq_true, if_false] at hends
  split at hends
  · obtain ⟨ids, listed, henumerated, hends⟩ := ends_false_iff.1 hends
    obtain ⟨plan, planned, hplanned, hends⟩ := ends_false_iff.1 hends
    refine ⟨ids, listed, plan, planned, henumerated, hplanned, fun seat₁ hseat₁ hup₁ => ?_⟩
    simp only [ends_bind, ends_changeManager, Roster.get?_update_of_some hseat₁, Option.map_some,
      Option.getD_some, hup₁, Bool.false_eq_true, if_false] at hends
    exact on_eq_ok_iff.2 (hends.imp (fun _ _ hend => ⟨rfl, hend.2⟩) fun _ _ => id)
  · cases hends

/-! ## What is shown and what was granted -/

/-- The surface of a stub, if it has one. -/
def surface? (h : Host S) (id : StubId) : Option SurfaceState :=
  (h.state.stubs.get? id).bind StubRecord.surface

/-- **What a manager shows of a pass is what was pushed.** It has one entry for each of the stubs
that were listed, and none from earlier passes. The memory that each of them was granted last
is in its entry. What is summed up are the entries of the stubs whose surfaces were visible when
they were listed, and of those whose surfaces were hidden, and they are counted. -/
structure Agrees (listed : Host S) (ids : List StubId) (m : Manager) (h : Host S) : Prop where
  entries : m.lastStats.keys = ids
  pushed {id : StubId} (hid : id ∈ ids) : ∃ stub stat, h.state.stubs.get? id = some stub ∧
    m.lastStats.find? id = some stat ∧ stub.allocation = stat.allocation
  visibleBytes : m.lastBreakdown.visibleBytes =
    ((ids.filter fun id => (listed.surface? id).any SurfaceState.visible).map
      (bytesShown m.lastStats)).sum
  hiddenBytes : m.lastBreakdown.hiddenBytes =
    ((ids.filter fun id => (listed.surface? id).any fun s => !s.visible).map
      (bytesShown m.lastStats)).sum
  visibleStubs : m.lastBreakdown.visibleStubs =
    ids.countP fun id => (listed.surface? id).any SurfaceState.visible
  hiddenStubs : m.lastBreakdown.hiddenStubs =
    ids.countP fun id => (listed.surface? id).any fun s => !s.visible
  offscreenStubs : m.lastBreakdown.offscreenStubs =
    ids.countP fun id => (listed.surface? id).isNone

/-- What a plan says and what was granted of it agree. -/
theorem Agrees.of_divides {b : Bounds} {views : List StubView} {plan : Plan}
    (hdiv : Plan.Divides b views plan) {listed h : Host S} {ids : List StubId}
    (hviews : views.map StubView.id = ids) (hids : ids.Nodup)
    (hsurfaces : views.map StubView.surface = ids.map listed.surface?)
    (hpushed : ∀ a ∈ plan.assignments, ∃ stub, h.state.stubs.get? a.stub = some stub ∧
      stub.allocation = a.allocation) {m : Manager} {total : Nat}
    (hpublished : m.published = (Manager.publish m total plan).published) :
    Agrees listed ids m h := by
  obtain ⟨-, hstats, hbreakdown⟩ : _ ∧ _ ∧ _ := by
    simpa only [Manager.published, Prod.mk.injEq] using hpublished
  have hstats : m.lastStats = plan.stats := hstats
  obtain ⟨hvisible, hhidden, hvisibles, hhiddens, hoffscreens⟩ :=
    hdiv.breakdown hviews hids hsurfaces
  rw [← hstats] at hvisible hhidden
  obtain rfl := hviews
  refine ⟨?_, fun {id} hid => ?_, ?_, ?_, ?_, ?_, ?_⟩
  · rw [hstats]
    exact hdiv.keys_stats hids
  · rw [← hdiv.numbers] at hid
    obtain ⟨a, ha, rfl⟩ := List.mem_map.1 hid
    obtain ⟨stub, hstub, hallocation⟩ := hpushed a ha
    refine ⟨stub, ⟨a.visible, a.allocation⟩, hstub, ?_, hallocation⟩
    rw [hstats]
    exact hdiv.find?_stats hids ha
  all_goals rw [hbreakdown]
  · exact hvisible
  · exact hhidden
  · exact hvisibles
  · exact hhiddens
  · exact hoffscreens

/-- Stubs are never gone, whatever is done. -/
theorem passing_stubs (count : Nat) :
    Passing (fun h : Host S => count ≤ h.state.stubs.members.length)
      fun h => count ≤ h.state.stubs.members.length where
  toManaged := managed_of_quiet (fun hh hthen => hh.trans hthen.stubs_le)
    (fun hh hthen => hh.trans hthen.stubs_le) fun _ => id
  grant hh _ _ := hh.trans (Roster.length_update ..).ge
  publish hh _ _ _ _ _ _ := hh

section Agreement

variable {run : S → Act S Unit} {number : Nat} {h h' : Host S} {seat : ManagerSeat S}

/-- The stubs that are listed are there, when their names are in order. -/
theorem ends_enumerate (run : S → Act S Unit) (number : Nat) (h : Host S) :
    (enumerate run number).Ends h (fun ids listed => listed.state.stubs.Sound →
      ∀ id ∈ ids, id < listed.state.stubs.members.length) fun _ _ => True := by
  unfold enumerate
  rw [ends_bind, ends_seat?]
  cases h.state.managers.get? number with
  | none => exact fun _ => nofun
  | some seat =>
    simp only [ends_bind, ends_emit]
    refine (ends_true _).imp (fun _ listed _ => ?_) fun _ _ => id
    intro hsound id hid
    obtain ⟨name, -, hname⟩ := List.mem_filterMap.1 hid
    exact hsound.lt_of_name hname

/-- The stubs that a pass has listed are there when its plan is made. -/
theorem there_of_planned (hsolvent : ∀ script, (run script).Preserves Solvent Solvent)
    (hquiet : ∀ base script, (run script).Preserves (Quiet base) (Quiet base))
    (hh : Solvent h) (hseat : h.state.managers.get? number = some seat) {ids : List StubId}
    {listed planned : Host S} {b : Bounds} {plan : Plan}
    (henumerated : (enumerate run number).on (cleared h number seat) = (.ok ids, listed))
    (hplanned : (planPass run b ids).on listed = (.ok plan, planned)) :
    ∀ id ∈ ids, id < planned.state.stubs.members.length := by
  have hcleared : Solvent (cleared h number seat) :=
    passing_solvent.enduring.keep hh hseat (.clear h.state.handles) _
  have hpass := passing_solvent.passStable
    (fun _ _ => preserves_change fun _ hh => hh.same rfl rfl) hsolvent
  have hseat₁ : (cleared h number seat).state.managers.get? number
      = some { seat with manager := (seat.manager.clearWaiting h.state.handles).1 } :=
    Roster.get?_update_of_some hseat _
  have hlisted := (hpass.enumerate hseat₁ (hcleared.same rfl rfl)).of_on henumerated
  have hthere := (ends_enumerate run number _).of_on henumerated hlisted.stubs
  have hgrows (count : Nat) := (passing_stubs (S := S) count).passStable
    (fun _ _ => preserves_change fun _ hh => hh) fun script h hh =>
      (hquiet h script h (.refl h)).imp (fun _ _ hthen => hh.trans hthen.stubs_le)
        fun _ _ hthen => hh.trans hthen.stubs_le
  have hplanned := ((hgrows _).planPass b ids (Nat.le_refl _)).of_on hplanned
  exact fun id hid => (hthere id hid).trans_le hplanned.1

/-- **What is published is what was pushed**, at the end of every pass that ran to it, if no other
pass began while it was handed out. -/
theorem agrees_of_manage (hsolvent : ∀ script, (run script).Preserves Solvent Solvent)
    (hquiet : ∀ base script, (run script).Preserves (Quiet base) (Quiet base))
    (hh : Solvent h) (hseat : h.state.managers.get? number = some seat)
    (hup : seat.manager.shutDown = false) (hon : (manage run number).on h = (.ok (), h')) :
    ∃ ids listed plan planned,
      (enumerate run number).on (cleared h number seat) = (.ok ids, listed) ∧
      (planPass run (seat.manager.bounds (passTotal seat number listed)) ids).on listed
        = (.ok plan, planned) ∧
      ∀ seat₁, planned.state.managers.get? number = some seat₁ →
        seat₁.manager.shutDown = false → ids.Nodup → begun h' = begun planned →
          ∃ seat', h'.state.managers.get? number = some seat' ∧
            seat'.manager.available = passTotal seat number listed ∧
            Agrees listed ids seat'.manager h' := by
  obtain ⟨ids, listed, plan, planned, henumerated, hplanned, hhanded⟩ :=
    exists_of_manage hseat hup hon
  refine ⟨ids, listed, plan, planned, henumerated, hplanned,
    fun seat₁ hseat₁ hup₁ hids hbegun => ?_⟩
  obtain ⟨views, hviews, hsurfaces, hplan⟩ := (ends_planPass_views run _ ids listed).of_on hplanned
  have hdiv := Plan.Divides.of_ok hplan
  have hzip : ids.zip plan.assignments = plan.assignments.map fun a => (a.stub, a) :=
    hviews ▸ hdiv.zip_assignments
  have hkeys : (plan.assignments.map fun a => (a.stub, a)).map Prod.fst = ids := by
    rw [List.map_map, ← hviews, ← hdiv.numbers]
    rfl
  have hthere := there_of_planned hsolvent hquiet hh hseat henumerated hplanned
  have hhanded := hhanded seat₁ hseat₁ hup₁
  rw [hzip] at hhanded
  have hgranted := (ends_grants hquiet (hkeys.symm ▸ hids) (hkeys.symm ▸ hthere)).of_on hhanded
  have hleaves := hgranted.leaves hbegun
  have hcounted := Roster.get?_update_of_some hseat₁ fun s : ManagerSeat S =>
    { s with manager := { s.manager with passes := s.manager.passes + 1 } }
  obtain ⟨seat', hseat', hpublished⟩ := hleaves.published
    (Roster.get?_update_of_some hcounted fun s : ManagerSeat S =>
      { s with manager := s.manager.publish (passTotal seat number listed) plan })
  refine ⟨seat', hseat', congrArg Prod.fst hpublished, .of_divides hdiv hviews hids hsurfaces
    (fun a ha => hleaves.pushed (List.mem_map_of_mem ha)) hpublished⟩

end Agreement

end Host

end Compositor
