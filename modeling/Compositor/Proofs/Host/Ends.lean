import Compositor.Host.Managing
import Compositor.Proofs.Host.Roster
import Compositor.Proofs.Task.Ends
import Compositor.Proofs.Task.Queue

/-!
# How actions on a host end

The rules for the primitive actions on a host, and what a pass keeps that belongs to
the owner and the stubs of a manager. All that a pass does with them is to let the
observer see it, to run their callbacks and to write down what was granted: a property
that survives these three survives the asking and the granting of a whole pass.
-/

namespace Compositor

/-- Whether it is the event that starts a pass: a manager asks for its stubs. -/
def Event.isEnumerate {S : Type} : Event S → Bool
  | .enumerate _ => true
  | _ => false

/-- Whether a limiter calls: a context is made to wait, or a client is told of it. -/
def Event.isCall {S : Type} : Event S → Bool
  | .wait _ => true
  | .limit _ => true
  | _ => false

/-- Whether it is a frame of a fade. -/
def Event.isFade {S : Type} : Event S → Bool
  | .fade .. => true
  | _ => false

namespace Host

open Compositor.Action

variable {S : Type} {h : Host S} {E : Halt → Host S → Prop}

/-! ## Primitive actions -/

@[simp] theorem ends_residents {Q : Residents S → Host S → Prop} :
    (residents : Act S (Residents S)).Ends h Q E ↔ Q h.state h :=
  Iff.rfl

@[simp] theorem ends_change {Q : Unit → Host S → Prop} (f : Residents S → Residents S) :
    (change f : Act S Unit).Ends h Q E ↔ Q () { h with state := f h.state } :=
  Iff.rfl

@[simp] theorem ends_now {Q : Nanos → Host S → Prop} :
    (now : Act S Nanos).Ends h Q E ↔ Q h.queue.now h :=
  Iff.rfl

@[simp] theorem ends_emit {Q : Unit → Host S → Prop} (e : Event S) :
    (emit e : Act S Unit).Ends h Q E
      ↔ Q () { h with state := { h.state with events := e :: h.state.events } } :=
  Iff.rfl

@[simp] theorem ends_seat? {Q : Option (ManagerSeat S) → Host S → Prop} (number : Nat) :
    (seat? number : Act S (Option (ManagerSeat S))).Ends h Q E
      ↔ Q (h.state.managers.get? number) h :=
  Iff.rfl

@[simp] theorem ends_requireThread {Q : Unit → Host S → Prop} (f : Fault) :
    (requireThread f : Act S Unit).Ends h Q E
      ↔ if h.state.onThread then Q () h else E (.fault f) h := by
  unfold requireThread
  simp only [ends_bind, ends_residents]
  cases h.state.onThread <;> exact Iff.rfl

/-- Writing back what a transition made of a manager and of the handles. -/
@[simp] theorem ends_keep {Q : Unit → Host S → Prop} (number : Nat) (m : Manager)
    (handles : Handles) :
    (keep number m handles : Act S Unit).Ends h Q E
      ↔ Q () { h with state := { h.state with
          managers := h.state.managers.update number fun s => { s with manager := m }
          handles } } :=
  Iff.rfl

@[simp] theorem ends_changeManager {Q : Unit → Host S → Prop} (number : Nat)
    (f : Manager → Manager) :
    (changeManager number f : Act S Unit).Ends h Q E
      ↔ Q () { h with state := { h.state with
          managers := h.state.managers.update number fun s =>
            { s with manager := f s.manager } } } :=
  Iff.rfl

/-! ## Posting -/

section Posting

variable {task : Task S} {delay : Nanos} {Q : Bool → Host S → Prop}

theorem ends_post
    (hQ : ∀ accepted queue, h.queue.post task delay = .ok (accepted, queue) →
      Q accepted { h with queue }) :
    (EventLoop.post task delay : Act S Bool).Ends h Q fun _ _ => True := by
  unfold EventLoop.post
  simp only [ends_bind, ends_get, ends_ofExcept]
  cases hpost : h.queue.post task delay with
  | error f => trivial
  | ok posted => exact hQ posted.1 posted.2 hpost

/-- A post is accepted, or refused, or halted with nothing posted. -/
theorem ends_post_cases
    (haccepted : h.queue.accepting = true → h.queue.now + delay ≤ longestSpan →
      Q true { h with queue := h.queue.accept task delay })
    (hrefused : Q false h) (hhalted : ∀ f, E (.fault f) h) :
    (EventLoop.post task delay : Act S Bool).Ends h Q E := by
  unfold EventLoop.post
  simp only [ends_bind, ends_get, ends_ofExcept]
  cases hpost : h.queue.post task delay with
  | error f => exact hhalted f
  | ok posted =>
    obtain ⟨accepted, queue⟩ := posted
    obtain ⟨haccepts, rfl⟩ := TaskQueue.post_eq_ok hpost
    cases accepted with
    | true => exact haccepted haccepts.symm (TaskQueue.formed_of_post hpost)
    | false => exact hrefused

/-- A queue that takes posts takes this one. -/
theorem ends_post_accepting (haccepting : h.queue.accepting = true)
    (hQ : Q true { h with queue := h.queue.accept task delay }) :
    (EventLoop.post task delay : Act S Bool).Ends h Q fun _ _ => True := by
  refine ends_post fun accepted queue hpost => ?_
  obtain ⟨rfl, rfl⟩ := TaskQueue.post_eq_ok hpost
  rw [haccepting]
  exact hQ

/-- A queue that takes posts takes every task whose due time can be formed. -/
theorem ends_post_formed (haccepts : h.queue.accepting = true)
    (hdue : h.queue.now + delay ≤ longestSpan) :
    (EventLoop.post task delay : Act S Bool).Ends h Q E
      ↔ Q true { h with queue := h.queue.accept task delay } := by
  unfold EventLoop.post
  simp only [ends_bind, ends_get, ends_ofExcept, TaskQueue.post_of_accepting haccepts _ hdue]
  exact Iff.rfl

/-- Whatever a runner that refuses is given, its queue stays as it is. -/
theorem ends_post_refusing (hrefuses : h.queue.accepting = false) :
    (EventLoop.post task delay : Act S Bool).Ends h Q E ↔ Q false h := by
  unfold EventLoop.post
  simp only [ends_bind, ends_get, ends_ofExcept, TaskQueue.post_of_refusing hrefuses]
  exact Iff.rfl

end Posting

/-! ## What the primitive actions preserve -/

section Preserving

variable {P E : Host S → Prop} {α : Type}

theorem preserves_residents : (residents : Act S (Residents S)).Preserves P E := fun _ hP => hP

theorem preserves_now : (now : Act S Nanos).Preserves P E := fun _ hP => hP

theorem preserves_seat? (number : Nat) :
    (seat? number : Act S (Option (ManagerSeat S))).Preserves P E :=
  fun _ hP => hP

theorem preserves_change {f : Residents S → Residents S}
    (hf : ∀ h, P h → P { h with state := f h.state }) : (change f : Act S Unit).Preserves P E :=
  hf

/-- What holds whether the queue takes a post or refuses it. -/
theorem preserves_post {task : Task S} {delay : Nanos} (hE : ∀ h, P h → E h)
    (hpost : ∀ h accepted queue, P h → h.queue.post task delay = .ok (accepted, queue) →
      P { h with queue }) : (EventLoop.post task delay : Act S Bool).Preserves P E := by
  intro h hP
  unfold EventLoop.post
  simp only [ends_bind, ends_get, ends_ofExcept]
  cases hposted : h.queue.post task delay with
  | error f => exact hE h hP
  | ok posted => exact hpost h posted.1 posted.2 hP hposted

theorem preserves_requireThread (hE : ∀ h, P h → E h) (f : Fault) :
    (requireThread f : Act S Unit).Preserves P E := by
  intro h hP
  rw [ends_requireThread]
  split
  · exact hP
  · exact hE h hP

theorem preserves_holding (objects : List InUse) {a : Act S α} (ha : a.Preserves P E)
    (hinUse : ∀ h inUse, P h → P { h with state := { h.state with inUse } })
    (hhalted : ∀ h inUse, E h → E { h with state := { h.state with inUse } }) :
    (holding objects a).Preserves P E :=
  ha.around (fun h => hinUse h _) (fun h => hinUse h _) fun h => hhalted h _

theorem preserves_offThread {a : Act S α} (ha : a.Preserves P E)
    (hthread : ∀ h onThread, P h → P { h with state := { h.state with onThread } })
    (hhalted : ∀ h onThread, E h → E { h with state := { h.state with onThread } }) :
    (offThread a).Preserves P E :=
  .bind preserves_residents fun _ =>
    ha.around (fun h => hthread h _) (fun h => hthread h _) fun h => hhalted h _

theorem keeps_residents : (residents : Act S (Residents S)).Keeps P := preserves_residents

theorem keeps_now : (now : Act S Nanos).Keeps P := preserves_now

theorem keeps_seat? (number : Nat) : (seat? number : Act S (Option (ManagerSeat S))).Keeps P :=
  preserves_seat? number

theorem keeps_change {f : Residents S → Residents S}
    (hf : ∀ h, P h → P { h with state := f h.state }) : (change f : Act S Unit).Keeps P :=
  preserves_change hf

theorem keeps_requireThread (f : Fault) : (requireThread f : Act S Unit).Keeps P :=
  preserves_requireThread (fun _ _ => trivial) f

end Preserving

/-! ## What a pass does once it has started -/

/-- The host without what waits for a manager. -/
def cleared (h : Host S) (number : Nat) (seat : ManagerSeat S) : Host S :=
  { h with state := { h.state with
    managers := h.state.managers.update number fun s =>
      { s with manager := (seat.manager.clearWaiting h.state.handles).1 }
    handles := (seat.manager.clearWaiting h.state.handles).2 } }

/-- The host when the observer has seen a pass start. -/
def started (h : Host S) (number : Nat) (seat : ManagerSeat S) : Host S :=
  { cleared h number seat with state := { (cleared h number seat).state with
    events := .enumerate seat.owner.name :: h.state.events } }

/-- There is no pass of a manager that is not there. -/
theorem ends_manage_of_none {run : S → Act S Unit} {number : Nat} {Q : Unit → Host S → Prop}
    (hseat : h.state.managers.get? number = none) :
    (manage run number).Ends h Q E
      ↔ if h.state.onThread then Q () h else E (.fault (.managerOffThread .manage)) h := by
  unfold manage
  simp only [ends_bind, ends_requireThread, ends_seat?, hseat, ends_pure]

/-- A manager that was shut down has nothing left to do in a pass but to take down what
waits. -/
theorem ends_manage_of_shutDown {run : S → Act S Unit} {number : Nat} {seat : ManagerSeat S}
    {Q : Unit → Host S → Prop} (hseat : h.state.managers.get? number = some seat)
    (hdown : seat.manager.shutDown = true) :
    (manage run number).Ends h Q E
      ↔ if h.state.onThread then Q () (cleared h number seat)
        else E (.fault (.managerOffThread .manage)) h := by
  have hcleared : (seat.manager.clearWaiting h.state.handles).1.shutDown = true := hdown
  unfold manage
  simp only [ends_bind, ends_requireThread, ends_seat?, hseat, ends_residents, ends_keep,
    hcleared, if_true, ends_pure]
  rfl

/-- What a pass plans over are the stubs that it was given, in their order, with the surfaces that
they had before they were asked. -/
theorem ends_planPass_views (run : S → Act S Unit) (b : Bounds) (ids : List StubId) (h : Host S) :
    (planPass run b ids).Ends h
      (fun p _ => ∃ views : List StubView, views.map StubView.id = ids
        ∧ views.map StubView.surface
          = ids.map (fun id => (h.state.stubs.get? id).bind StubRecord.surface)
        ∧ Plan.ofStubs b views = .ok p) fun _ _ => True := by
  unfold planPass
  simp only [ends_bind, ends_residents]
  refine (ends_true _).imp (fun asked h' _ => ?_) fun _ _ _ => trivial
  rw [ends_ofExcept]
  split
  · next p hp =>
    refine ⟨_, ?_, ?_, hp⟩
    all_goals
      refine List.ext_getElem? fun index => ?_
      simp only [List.getElem?_map, List.getElem?_zipIdx, Nat.zero_add]
      cases ids[index]? <;> rfl
  · trivial

/-- **A property survives a pass that has started**: letting the observer see something else
than the start of a pass, running the callbacks that are kept on the host, each of which
is a good one, and writing down what was granted and what came of the pass. The other
property is what is left of it when the pass is halted. -/
structure PassStable (run : S → Act S Unit) (Good : S → Prop) (P : Host S → Prop)
    (E : Host S → Prop := fun _ => True) : Prop where
  halted (h : Host S) (hP : P h) : E h := by exact fun _ _ => trivial
  emit {e : Event S} (he : e.isEnumerate = false) (hcall : e.isCall = false)
    (hfade : e.isFade = false) : (emit e).Preserves P E
  run {script : S} (hgood : Good script) : (run script).Preserves P E
  onEnumerate {h : Host S} {number : Nat} {seat : ManagerSeat S} (hP : P h)
    (hseat : h.state.managers.get? number = some seat) : Good seat.owner.onEnumerate
  onRequest {h : Host S} {id : StubId} {stub : StubRecord S} (hP : P h)
    (hstub : h.state.stubs.get? id = some stub) : Good stub.onRequest
  onGrant {h : Host S} {id : StubId} {stub : StubRecord S} (hP : P h)
    (hstub : h.state.stubs.get? id = some stub) : Good stub.onGrant
  grant (id : StubId) (allocation : Allocation) :
    (change fun r => { r with
      stubs := r.stubs.update id fun s => { s with allocation } }).Preserves P E
  count (number : Nat) :
    (changeManager number fun m => { m with passes := m.passes + 1 }).Preserves P E
  publish {h : Host S} {number : Nat} {seat : ManagerSeat S} (hP : P h)
    (hseat : h.state.managers.get? number = some seat) (hup : seat.manager.shutDown = false)
    {b : Bounds} {views : List StubView} {plan : Plan} (hplan : Plan.ofStubs b views = .ok plan) :
    (changeManager number fun m => m.publish b.total plan).Ends h (fun _ => P) fun _ => E

namespace PassStable

variable {run : S → Act S Unit} {Good : S → Prop} {P E : Host S → Prop}

theorem askStub (hpass : PassStable run Good P E) (id : StubId) :
    (askStub run id).Preserves P E := by
  intro h hP
  unfold Host.askStub
  rw [ends_bind, ends_residents]
  cases hstub : h.state.stubs.get? id with
  | none => exact hP
  | some stub =>
    have hrun := hpass.run (hpass.onRequest hP hstub)
    exact ((hpass.emit rfl rfl rfl).bind fun _ => hrun.bind fun _ => preserves_residents.bind fun _ =>
      .pure _) h hP

theorem grantStub (hpass : PassStable run Good P E) (id : StubId) (allocation : Allocation) :
    (grantStub run id allocation).Preserves P E := by
  intro h hP
  unfold Host.grantStub
  rw [ends_bind, ends_residents]
  cases hstub : h.state.stubs.get? id with
  | none => exact hP
  | some stub =>
    have hrun := hpass.run (hpass.onGrant hP hstub)
    exact ((hpass.grant id allocation).bind fun _ => (hpass.emit rfl rfl rfl).bind fun _ => hrun) h hP

/-- Asking one contender after the other. -/
theorem askContenders (hpass : PassStable run Good P E) (bounds : Bounds) (rank : Nat)
    (contenders : List Contender) : (askContenders run bounds rank contenders).Preserves P E := by
  induction contenders generalizing rank with
  | nil => exact .pure _
  | cons c rest ih =>
    have hrest := fun asked : Nat =>
      (ih (rank + 1)).bind fun answers => .pure (answers.insert c.index asked)
    unfold Host.askContenders
    split
    · exact (hpass.askStub c.stub.id).bind hrest
    · exact (Preserves.pure 0).bind hrest

/-- Planning: what comes of it is a plan. -/
theorem planPass (hpass : PassStable run Good P E) (bounds : Bounds) (stubs : List StubId)
    {h : Host S} (hP : P h) :
    (planPass run bounds stubs).Ends h
      (fun plan h' => P h' ∧ ∃ views, Plan.ofStubs bounds views = .ok plan) fun _ => E := by
  have hplan : (Host.planPass run bounds stubs).Preserves P E :=
    preserves_residents.bind fun _ => (hpass.askContenders bounds 0 _).bind fun _ =>
      preserves_residents.bind fun _ => .ofExcept hpass.halted _
  refine ((hplan h hP).and (ends_planPass_views run bounds stubs h)).imp
    (fun plan h' hends => ?_) fun _ _ => And.left
  obtain ⟨hP', views, -, -, hviews⟩ := hends
  exact ⟨hP', views, hviews⟩

/-- Handing out what a plan says. -/
theorem grants (hpass : PassStable run Good P E) (given : List (StubId × Assignment)) :
    (given.forM fun (id, a) => Host.grantStub run id a.allocation).Preserves P E :=
  .forM fun _ _ => hpass.grantStub _ _

/-- Listing the stubs, once the observer has seen it. -/
theorem enumerate (hpass : PassStable run Good P E) {h : Host S} {number : Nat}
    {seat : ManagerSeat S} (hseat : h.state.managers.get? number = some seat)
    (hP : P { h with state := { h.state with
      events := .enumerate seat.owner.name :: h.state.events } }) :
    (enumerate run number).Ends h (fun _ => P) fun _ => E := by
  unfold Host.enumerate
  rw [ends_bind, ends_seat?, hseat]
  have hrun := hpass.run (hpass.onEnumerate hP hseat)
  exact (hrun.bind fun _ => preserves_residents.bind fun _ => .pure _) _ hP

/-- **A whole pass.** It takes down whatever waits; that is all if the manager was shut
down, and else the observer sees it start, and what holds then holds at the end. -/
theorem manage (hpass : PassStable run Good P E) {h : Host S} {number : Nat}
    {seat : ManagerSeat S} (hseat : h.state.managers.get? number = some seat)
    (hshut : seat.manager.shutDown = true → P (cleared h number seat))
    (hstart : seat.manager.shutDown = false → P (started h number seat))
    (hhalted : E h := by exact trivial) :
    (manage run number).Ends h (fun _ => P) fun _ => E := by
  unfold Host.manage
  simp only [ends_bind, ends_requireThread]
  split
  · simp only [ends_seat?, hseat, ends_bind, ends_residents, ends_keep]
    split
    · next hdown => exact hshut hdown
    · next hup =>
      have hseat₁ : (cleared h number seat).state.managers.get? number
          = some { seat with manager := (seat.manager.clearWaiting h.state.handles).1 } :=
        Roster.get?_update_of_some hseat _
      have henumerate := hpass.enumerate hseat₁ (hstart (Bool.not_eq_true _ ▸ hup))
      -- a callback may have shut the manager down while its stubs were asked
      have hpublish (stubs : List StubId) {b : Bounds} {views : List StubView} {plan : Plan}
          (hplan : Plan.ofStubs b views = .ok plan) : (do
          if ((← seat? number).map fun s => s.manager.shutDown).getD true then return
          changeManager number fun m => m.publish b.total plan
          (stubs.zip plan.assignments).forM fun (id, a) => Host.grantStub run id a.allocation
            : Act S PUnit).Preserves P E := by
        intro h' hP'
        rw [ends_bind, ends_seat?]
        cases hseat' : h'.state.managers.get? number with
        | none => exact hP'
        | some seat' =>
          cases hup' : seat'.manager.shutDown with
          | true =>
            simp only [Option.map_some, Option.getD_some, hup', if_true]
            exact hP'
          | false =>
            simp only [Option.map_some, Option.getD_some, hup', Bool.false_eq_true, if_false,
              ends_bind]
            exact (hpass.publish hP' hseat' hup' hplan).imp
              (fun _ h'' hP'' => hpass.grants _ h'' hP'') fun _ _ hE => hE
      rw [ends_bind]
      refine henumerate.imp (fun stubs h' hP' => ?_) fun _ _ hE => hE
      rw [ends_bind, ends_seat?, ends_bind]
      refine (hpass.planPass _ stubs hP').imp (fun plan h'' hplanned => ?_) fun _ _ hE => hE
      obtain ⟨hP'', views, hplan⟩ := hplanned
      exact ((hpass.count number).bind fun _ => hpublish stubs hplan) h'' hP''
  · exact hhalted

end PassStable

end Host

end Compositor
