import Compositor.Proofs.Host.Limiting
import Compositor.Proofs.Manager.Evolution
import Compositor.Proofs.Scenario.Lookup

/-!
# Single changes of a host

Whatever is done to a host comes down to single changes of it: a task is posted or taken out,
a limiter is started or stopped, a manager evolves, something is seen. `Lasting` and `Enduring`
list them all, but for what a pass and a check do themselves. A property that endures every
single change is preserved by each operation that is put together from them; there is one lemma
for each.

The changes of `Lasting` are those that leave the clock, the tasks that wait and the fades alone:
all that an operation does which neither pumps the runner nor deals with scrollbars. `Enduring`
has the others, too.

Passes, and the calls of a limiter, run scripts. What they preserve depends on what the scripts
do, and on the property; so it is asked for where it is needed (`CallsBack`).
-/

namespace Compositor

/-- Whether it is part of a pass: a manager asks for its stubs, or a stub is granted memory. -/
def Event.isOfPass {S : Type} : Event S → Bool
  | .enumerate _ => true
  | .grant .. => true
  | _ => false

/-- What is no part of a pass does not start one. -/
theorem Event.isEnumerate_of_isOfPass {S : Type} {e : Event S} (he : e.isOfPass = false) :
    e.isEnumerate = false := by
  cases e <;> first | rfl | exact he

/-- The task is no check of any limiter. -/
def Task.ChecksNone {S : Type} (task : Task S) : Prop := ∀ limiter, task.checks limiter = false

/-- Whether the task is a frame of a fade of some name, behind whatever gates and guards. -/
def Task.fades {S : Type} (name : String) : Task S → Bool
  | .frame fade => fade.name == name
  | .guarded _ task => task.fades name
  | .proxied _ task => task.fades name
  | _ => false

/-- The task is neither a check of a limiter nor a frame of a fade. -/
def Task.Inert {S : Type} (task : Task S) : Prop :=
  task.ChecksNone ∧ ∀ name, task.fades name = false

/-- **One change of a seat**: its manager evolves, or the owner is edited. -/
inductive ManagerSeat.Evolves {S : Type} (s : ManagerSeat S) : ManagerSeat S → Prop where
  | manager {m : Manager} (hm : s.manager.Evolves m) : s.Evolves { s with manager := m }
  | edit (edit : OwnerEdit S) : s.Evolves { s with owner := Host.editOwner edit s.owner }

/-- **One change of the stubs of a host** by its embedder: a stub comes, or is edited. -/
inductive Roster.Restubs {S : Type} (stubs : Roster (StubRecord S)) : Roster (StubRecord S) → Prop
    where
  | enroll (name : String) (surface : Option SurfaceState) (requested : Nat)
      (shares : List String) (sizeFrom : Option String) (onRequest onGrant : S) :
      stubs.Restubs (stubs.enroll name
        { name, surface, requested, shares, sizeFrom, onRequest, onGrant }).2
  | edit (number : Nat) (edit : StubEdit S) :
      stubs.Restubs (stubs.update number (Host.editStub edit))

/-- A gate that is shut stays shut when it is to be shut again. -/
theorem Proxy.shutDown_shutdown {p : Proxy} (onThread : Bool) (hshut : p.shutDown = true) :
    (p.shutdown onThread).2.shutDown = true := by
  unfold Proxy.shutdown
  cases onThread with
  | true => rw [if_pos rfl, if_pos hshut]; exact hshut
  | false => exact hshut

/-- **What becomes of the gates of a host**: more of them come, and one that was shut stays shut. -/
def Roster.Regates (proxies proxies' : Roster Proxy) : Prop :=
  ∀ ⦃number p⦄, proxies.get? number = some p →
    ∃ p', proxies'.get? number = some p' ∧ (p.shutDown = true → p'.shutDown = true)

namespace Roster.Regates

variable {proxies proxies' : Roster Proxy}

theorem gains {p : Proxy} (hgains : proxies.Gains p proxies') : proxies.Regates proxies' :=
  fun _ _ hp => ⟨_, hgains.get?_of_some hp, id⟩

theorem forget (proxies : Roster Proxy) (name : String) :
    proxies.Regates (proxies.forget name) :=
  fun _ _ hp => ⟨_, (Roster.get?_forget ..).trans hp, id⟩

theorem update {number : Nat} {f : Proxy → Proxy}
    (hf : ∀ p, proxies.get? number = some p → p.shutDown = true → (f p).shutDown = true) :
    proxies.Regates (proxies.update number f) := by
  intro n p hp
  by_cases heq : n = number
  · subst heq
    exact ⟨f p, Roster.get?_update_of_some hp f, hf p hp⟩
  · exact ⟨p, (Roster.get?_update_of_ne _ _ heq).trans hp, id⟩

end Roster.Regates

namespace Host

open Compositor.Action

variable {S : Type}

/-- What properties of a host look at. The thread, what is in use, handles, registries and the
embedder's own tables are left out. -/
structure Facets (S : Type) where
  queue : TaskQueue (Task S)
  heldTasks : Table String (Task S)
  events : List (Event S)
  contexts : Roster (RateContext S)
  clients : Roster (RateClient S)
  limiters : Roster Limiter
  proxies : Roster Proxy
  scrollbars : Roster Scrollbar
  stubs : Roster (StubRecord S)
  managers : Roster (ManagerSeat S)

/-- What is looked at of a host. -/
def facets (h : Host S) : Facets S where
  queue := h.queue
  heldTasks := h.state.heldTasks
  events := h.state.events
  contexts := h.state.contexts
  clients := h.state.clients
  limiters := h.state.limiters
  proxies := h.state.proxies
  scrollbars := h.state.scrollbars
  stubs := h.state.stubs
  managers := h.state.managers

/-- **The property lasts while the clock, the tasks that wait and the fades are left alone**: it
survives every other single change of a host. The other one is what is left of it when an action is
halted. -/
structure Lasting (P E : Host S → Prop) : Prop where
  halted (h : Host S) (hP : P h) : E h
  aside {h h' : Host S} (hP : P h) (hsame : h'.facets = h.facets) : P h'
  haltedAside {h h' : Host S} (hE : E h) (hsame : h'.facets = h.facets) : E h'
  /-- Something is seen that is no frame, and neither part of a pass nor of a limiter's call. -/
  seen {h : Host S} (hP : P h) {e : Event S} (hpass : e.isOfPass = false)
    (hcall : e.isCall = false) (hfade : e.isFade = false) :
    P { h with state := { h.state with events := e :: h.state.events } }
  posted {h : Host S} (hP : P h) {task : Task S} (htask : task.Inert) {delay : Nanos}
    (hformed : h.queue.now + delay ≤ longestSpan) : P { h with queue := h.queue.accept task delay }
  kept {h : Host S} (hP : P h) (name : String) {task : Task S} (htask : task.Inert) :
    P { h with state := { h.state with heldTasks := h.state.heldTasks.insert name task } }
  released {h : Host S} (hP : P h) (name : String) :
    P { h with state := { h.state with heldTasks := h.state.heldTasks.erase name } }
  gated {h : Host S} {proxies : Roster Proxy} (hP : P h)
    (hproxies : h.state.proxies.Regates proxies) : P { h with state := { h.state with proxies } }
  -- scrollbars
  barMade {h : Host S} (hP : P h) (name : String) (bar : Scrollbar) :
    P { h with state := { h.state with scrollbars := (h.state.scrollbars.enroll name bar).2 } }
  /-- Only how clearly a scrollbar shows is changed. -/
  painted {h : Host S} (hP : P h) {number : Nat} {bar : Scrollbar}
    (hbar : h.state.scrollbars.get? number = some bar) (opacity : Float32) :
    P { h with state := { h.state with
      scrollbars := h.state.scrollbars.update number fun _ => { bar with opacity } } }
  -- limiters and their targets
  /-- A limiter is started, and the runner refuses its check. -/
  started {h : Host S} (hP : P h) {number : Nat} {l : Limiter}
    (hl : h.state.limiters.get? number = some l) (hidle : l.phase = .idle) :
    P { h with state := { h.state with
      limiters := h.state.limiters.update number fun _ => { l with phase := .active } } }
  /-- A limiter is started, and its check is posted. -/
  startedPosting {h : Host S} (hP : P h) {number : Nat} {l : Limiter}
    (hl : h.state.limiters.get? number = some l) (hidle : l.phase = .idle)
    (hformed : h.queue.now ≤ longestSpan) :
    P { state := { h.state with
          limiters := h.state.limiters.update number fun _ => { l with phase := .active } }
        queue := h.queue.accept (.proxied l.proxy (.check number)) 0 }
  stopped {h : Host S} (hP : P h) (number : Nat) :
    P { h with state := { h.state with
      limiters := h.state.limiters.update number Limiter.stop } }
  /-- A limiter is made, under a name or without one. -/
  made {h : Host S} (hP : P h) {l : Limiter} {limiters : Roster Limiter}
    (hgains : h.state.limiters.Gains l limiters) (hidle : l.phase = .idle) :
    P { h with state := { h.state with limiters } }
  unnamed {h : Host S} (hP : P h) (name : String) :
    P { h with state := { h.state with limiters := h.state.limiters.forget name } }
  contextMade {h : Host S} (hP : P h) (name : String) (c : RateContext S) :
    P { h with state := { h.state with contexts := (h.state.contexts.enroll name c).2 } }
  contextDropped {h : Host S} (hP : P h) (name : String) :
    P { h with state := { h.state with contexts := h.state.contexts.forget name } }
  clientMade {h : Host S} (hP : P h) (name : String) (c : RateClient S) :
    P { h with state := { h.state with clients := (h.state.clients.enroll name c).2 } }
  clientDropped {h : Host S} (hP : P h) (name : String) :
    P { h with state := { h.state with clients := h.state.clients.forget name } }
  -- managers and their stubs
  evolved {h : Host S} {number : Nat} {f : ManagerSeat S → ManagerSeat S} (hP : P h)
    (hf : ∀ seat, h.state.managers.get? number = some seat → seat.Evolves (f seat)) :
    P { h with state := { h.state with managers := h.state.managers.update number f } }
  misreported {h : Host S} {number : Nat} {seat : ManagerSeat S} (hP : P h)
    (hseat : h.state.managers.get? number = some seat) (id : GroupId) (old new : Nat) :
    E { h with state := { h.state with managers := h.state.managers.update number fun s =>
      { s with manager := (seat.manager.report id old new).2 } } }
  managerMade {h : Host S} (hP : P h) (owner : StubOwner S) (config : Config) (proxy : Nat) :
    P { h with state := { h.state with managers := (h.state.managers.enroll owner.name
      { manager := Manager.ofConfig h.state.platform config, owner, proxy }).2 } }
  managerDropped {h : Host S} (hP : P h) (name : String) :
    P { h with state := { h.state with managers := h.state.managers.forget name } }
  restubbed {h : Host S} {stubs : Roster (StubRecord S)} (hP : P h)
    (hstubs : h.state.stubs.Restubs stubs) : P { h with state := { h.state with stubs } }

/-- **The property endures every single change of a host.** -/
structure Enduring (P E : Host S → Prop) : Prop extends Lasting P E where
  fadeSeen {h : Host S} (hP : P h) (name : String) (opacity : Float32) (time : Nanos) :
    P { h with state := { h.state with events := .fade name opacity time :: h.state.events } }
  framePosted {h : Host S} (hP : P h) (fade : Fade S) {delay : Nanos}
    (hformed : h.queue.now + delay ≤ longestSpan) :
    P { h with queue := h.queue.accept (.proxied fade.proxy (.frame fade)) delay }
  barChanged {h : Host S} (hP : P h) (number : Nat) (f : Scrollbar → Scrollbar) :
    P { h with state := { h.state with scrollbars := h.state.scrollbars.update number f } }
  /-- The clock is moved to a time by which nothing is due. -/
  moved {h : Host S} (hP : P h) {now : Nanos} (hnone : h.queue.popDue now = none)
    (hformed : now ≤ longestSpan) : P { h with queue := { h.queue with now } }
  taken {h : Host S} (hP : P h) {p : Pending (Task S)} {rest : List (Pending (Task S))}
    (hpending : h.queue.pending = p :: rest) : P { h with queue := h.queue.without p rest }
  cleared {h : Host S} (hP : P h) : P { h with queue := h.queue.clear }
  accepts {h : Host S} (hP : P h) (accepting : Bool) :
    P { h with queue := { h.queue with accepting } }

namespace Lasting

variable {P E : Host S → Prop} (hP : Lasting P E)

include hP

theorem indifferent : Indifferent P E where
  onThread _ _ hh := hP.aside hh rfl
  inUse _ _ hh := hP.aside hh rfl
  groupIds _ _ hh := hP.aside hh rfl
  groupHandles _ _ hh := hP.aside hh rfl
  snapshots _ _ hh := hP.aside hh rfl
  haltedOnThread _ _ hE := hP.haltedAside hE rfl
  haltedInUse _ _ hE := hP.haltedAside hE rfl

theorem emit {e : Event S} (hpass : e.isOfPass = false) (hcall : e.isCall = false)
    (hfade : e.isFade = false) : (emit e : Act S Unit).Preserves P E :=
  preserves_change fun _ hh => hP.seen hh hpass hcall hfade

theorem requireThread (f : Fault) : (requireThread f : Act S Unit).Preserves P E :=
  preserves_requireThread hP.halted f

theorem holding {α : Type} (objects : List InUse) {a : Act S α} (ha : a.Preserves P E) :
    (holding objects a).Preserves P E :=
  preserves_holding objects ha (fun _ _ hh => hP.aside hh rfl) fun _ _ hE => hP.haltedAside hE rfl

/-! ## Posting -/

theorem post {task : Task S} (htask : task.Inert) (delay : Nanos) :
    (EventLoop.post task delay : Act S Bool).Preserves P E :=
  fun h hh => ends_post_cases (fun _ => hP.posted hh htask) hh fun _ => hP.halted h hh

theorem postVia (proxy : Nat) {task : Task S} (htask : task.Inert) (delay : Nanos) :
    (postVia proxy task delay).Preserves P E :=
  hP.post (show Task.Inert (.proxied proxy task) from htask) delay

/-- A task that is guarded is still no check and no frame. -/
theorem guardTask (guard : Guard) {task : Task S} (htask : task.Inert) {h : Host S}
    (hh : P h) :
    (guardTask guard task).Ends h (fun t h' => t.Inert ∧ P h') fun _ => E := by
  unfold Host.guardTask
  cases guard with
  | none => exact ⟨htask, hh⟩
  | handle name => exact ⟨htask, hP.aside hh rfl⟩
  | slot name => exact ⟨htask, hP.aside hh rfl⟩

theorem postScript (label : String) (delay : Nanos) (guard : Guard) (proxy : Option String)
    (script : S) : (Host.post label delay guard proxy script).Preserves P E := by
  have hscript : (Task.scripted label script).Inert := ⟨fun _ => rfl, fun _ => rfl⟩
  unfold Host.post
  cases proxy with
  | none =>
    intro h hh
    rw [ends_bind]
    exact (hP.guardTask guard hscript hh).imp (fun t h' ht =>
      (hP.post ht.1 delay).bind (fun _ => .pure _) h' ht.2) fun _ _ hE => hE
  | some name =>
    refine preserves_lookUp fun number h hh => ?_
    rw [ends_bind]
    exact (hP.guardTask guard hscript hh).imp (fun t h' ht =>
      (hP.postVia number ht.1 delay).bind (fun _ => .pure _) h' ht.2) fun _ _ hE => hE

theorem hold (name label : String) (guard : Guard) (script : S) :
    (hold name label guard script).Preserves P E := by
  have hscript : (Task.scripted label script).Inert := ⟨fun _ => rfl, fun _ => rfl⟩
  intro h hh
  unfold Host.hold
  rw [ends_bind]
  exact (hP.guardTask guard hscript hh).imp (fun t h' ht => hP.kept ht.2 name ht.1)
    fun _ _ hE => hE

/-! ## Proxies, handles and slots -/

theorem shutdownProxy (proxy : Nat) : (shutdownProxy proxy : Act S Unit).Preserves P E :=
  preserves_shutdownProxy hP.halted fun _ _ onThread hh hp =>
    hP.gated hh (.update fun p' hp' hshut => by
      obtain rfl := Option.some.inj (hp.symm.trans hp')
      exact Proxy.shutDown_shutdown onThread hshut)

theorem newProxy (name : String) : (newProxy name : Act S Reply).Preserves P E := by
  refine preserves_residents.bind fun r => ?_
  split
  · exact .pure _
  · exact .bind (preserves_change fun _ hh => hP.gated hh (.gains (Roster.gains_enroll ..)))
      fun _ => .pure _

theorem cancelHandle (name : String) : (cancelHandle name : Act S Reply).Preserves P E :=
  preserves_lookUp fun _ => .bind (preserves_change fun _ hh => hP.aside hh rfl) fun _ => .pure _

theorem cancelSlot (name : String) : (cancelSlot name : Act S Reply).Preserves P E :=
  preserves_lookUp fun _ => preserves_residents.bind fun _ =>
    .bind (preserves_change fun _ hh => hP.aside hh rfl) fun _ => .pure _

/-! ## Limiters -/

/-- Starting a limiter posts its check, if the limiter is idle and the runner does not refuse. -/
theorem startLimiter (number : Nat) : (startLimiter number : Act S Unit).Preserves P E := by
  intro h hh
  unfold Host.startLimiter
  rw [ends_bind, ends_residents]
  cases hl : h.state.limiters.get? number with
  | none => exact hh
  | some l =>
    rw [Option.bind_some]
    unfold Limiter.start?
    by_cases hidle : l.phase = .idle
    · have hself : (h.state.limiters.update number fun _ => { l with phase := .active }).get? number
          = some { l with phase := .active } := Roster.get?_update_of_some hl _
      rw [if_pos hidle, ends_bind, ends_change]
      unfold postCheck
      rw [ends_bind, ends_residents]
      simp only [hself]
      have hstarted := hP.started hh hl hidle
      exact (ends_map ..).2 (ends_post_cases (fun _ => hP.startedPosting hh hl hidle) hstarted
        fun _ => hP.halted _ hstarted)
    · rw [if_neg hidle]
      exact hh

theorem stopLimiter (number : Nat) : (stopLimiter number : Act S Unit).Preserves P E :=
  preserves_change fun _ hh => hP.stopped hh number

theorem newLimiter (name context client proxy : String) (interval : Nanos) :
    (newLimiter name context client proxy interval : Act S Reply).Preserves P E := by
  refine preserves_residents.bind fun r => ?_
  split
  · exact preserves_withNamed _ fun _ => .bind
      (preserves_change fun _ hh => hP.made hh (Roster.gains_enroll ..) rfl) fun _ => .pure _
  · exact .pure _

theorem registryStart (name : String) (context : Nat) :
    (registryStart name context : Act S Unit).Preserves P E := by
  intro h hh
  unfold Host.registryStart
  rw [ends_bind, ends_residents]
  split
  · split
    · exact hh
    · extract_lets +lift stopped kept
      cases kept with
      | some number => exact hP.startLimiter number h hh
      | none => exact hP.startLimiter _ _ (hP.aside (hP.made hh (Roster.gains_add ..) rfl) rfl)
  · exact hh

theorem registryStop (name : String) (id : ContextId) :
    (registryStop name id : Act S Unit).Preserves P E := by
  refine preserves_residents.bind fun r => ?_
  split
  · exact .pure _
  · split
    · exact .pure _
    · exact .bind (preserves_change fun _ hh => hP.aside hh rfl) fun _ => hP.stopLimiter _

theorem registryStopAll (name : String) :
    (registryStopAll name : Act S Unit).Preserves P E :=
  preserves_registryStopAll (hP.registryStop name)

theorem dropRegistry (name : String) : (dropRegistry name : Act S Unit).Preserves P E :=
  preserves_dropRegistry (hP.registryStop name) fun _ hh => hP.aside hh rfl

theorem newRegistry (name proxy client : String) (interval : Nanos) :
    (newRegistry name proxy client interval : Act S Reply).Preserves P E := by
  refine preserves_residents.bind fun r => ?_
  split
  · exact (hP.dropRegistry name).bind fun _ =>
      .bind (preserves_change fun _ hh => hP.aside hh rfl) fun _ => .pure _
  · exact .pure _

/-! ## Scrollbars -/

theorem animate (number : Nat) (time : Nanos) :
    (animate number time : Act S _).Preserves P E :=
  preserves_animate hP.halted (fun _ _ opacity hh hbar => hP.painted hh hbar opacity) time

theorem animateNamed (name : String) (time : Option Nanos) :
    (animateNamed name time : Act S Reply).Preserves P E := by
  refine preserves_lookUp fun number => preserves_now.bind fun _ => ?_
  refine (hP.animate number _).bind fun animated => ?_
  cases animated <;> exact .pure _

/-! ## Requests -/

/-- Changing the manager of a number, if there is one. -/
theorem changeManager {number : Nat} {f : Manager → Manager} {h : Host S} (hh : P h)
    (hf : ∀ seat, h.state.managers.get? number = some seat →
      seat.manager.Evolves (f seat.manager)) :
    (changeManager number f : Act S Unit).Ends h (fun _ => P) fun _ => E :=
  hP.evolved hh fun seat hseat => .manager (hf seat hseat)

/-- Writing back what a change made of the manager that is there, and of the handles. -/
theorem keep {number : Nat} {seat : ManagerSeat S} {h : Host S} (hh : P h)
    (hseat : h.state.managers.get? number = some seat) {m : Manager}
    (hm : seat.manager.Evolves m) (handles : Handles) :
    P { h with state := { h.state with
      managers := h.state.managers.update number fun s => { s with manager := m }
      handles } } := by
  have hevolved := hP.evolved (f := fun s => { s with manager := m }) hh fun seat' hseat' => by
    obtain rfl := Option.some.inj (hseat.symm.trans hseat')
    exact .manager hm
  exact hP.aside hevolved rfl

theorem undoRequest (number : Nat) (immediate : Bool) :
    (undoRequest number immediate : Act S Unit).Preserves P E := by
  intro h hh
  unfold Host.undoRequest
  simp only [ends_bind, ends_seat?]
  cases hseat : h.state.managers.get? number with
  | none => exact hh
  | some seat =>
    simp only [ends_bind, ends_residents]
    exact hP.keep hh hseat (.refused immediate h.state.handles) _

theorem schedule (number : Nat) (immediate : Bool) :
    (schedule number immediate : Act S Unit).Preserves P E := by
  intro h hh
  unfold Host.schedule
  simp only [ends_bind, ends_seat?]
  cases hseat : h.state.managers.get? number with
  | none => exact hh
  | some seat =>
    simp only [ends_bind, ends_residents, ends_keep]
    have hkept := hP.keep hh hseat (.request immediate h.state.handles)
      (seat.manager.request immediate h.state.handles).2.2
    have hposted (accepted undone : Bool) : (if accepted then pure PUnit.unit
        else Host.undoRequest number undone : Act S PUnit).Preserves P E := by
      cases accepted
      · exact hP.undoRequest number undone
      · exact .pure _
    split
    · exact hkept
    · exact (hP.postVia _ ⟨fun _ => rfl, fun _ => rfl⟩ _).bind
        (fun accepted => hposted accepted true) _ hkept
    · exact (hP.postVia _ ⟨fun _ => rfl, fun _ => rfl⟩ _).bind
        (fun accepted => hposted accepted false) _ hkept

theorem setWindows (number : Nat) (windows : Option Nat) :
    (setWindows number windows : Act S Unit).Preserves P E := by
  refine (preserves_seat? number).bind fun found => ?_
  cases found with
  | none => exact .pure _
  | some seat =>
    dsimp only
    split
    · exact .pure _
    · exact .bind (fun h hh => hP.changeManager hh fun _ _ => .resize _) fun _ =>
        hP.schedule number true

theorem shutdownManager (number : Nat) :
    (shutdownManager number : Act S Unit).Preserves P E := by
  intro h hh
  unfold Host.shutdownManager
  simp only [ends_bind, ends_seat?]
  cases hseat : h.state.managers.get? number with
  | none => exact hh
  | some seat =>
    dsimp only
    split
    · exact hh
    · next hup =>
      simp only [ends_bind, ends_residents, ends_keep]
      exact hP.shutdownProxy seat.proxy _
        (hP.keep hh hseat (.shut (Bool.not_eq_true _ ▸ hup) h.state.handles) _)

/-! ## Tracking groups -/

theorem addGroup (number pid : Nat) :
    (addGroup number pid : Act S (Option GroupId)).Preserves P E := by
  refine (hP.requireThread _).bind fun _ => fun h hh => ?_
  simp only [ends_bind, ends_seat?]
  cases hseat : h.state.managers.get? number with
  | none => exact hh
  | some seat =>
    simp only [ends_bind, ends_ofExcept]
    cases hadd : seat.manager.ledger.add pid with
    | error f => exact hP.halted h hh
    | ok opened =>
      obtain ⟨id, ledger⟩ := opened
      refine hP.evolved hh fun seat' hseat' => .manager ?_
      obtain rfl := Option.some.inj (hseat.symm.trans hseat')
      have hbook : seat.manager.ledger.book (.opened pid) = .ok ledger := by
        simp only [Ledger.book, hadd, Except.map]
      exact .book hbook

theorem removeGroup (number : Nat) (id : GroupId) :
    (removeGroup number id : Act S Unit).Preserves P E := by
  refine (hP.requireThread _).bind fun _ => fun h hh => ?_
  refine hP.changeManager hh fun seat _ => ?_
  have hbook : seat.manager.ledger.book (.closed id) = .ok (seat.manager.ledger.remove id) := rfl
  exact .book hbook

theorem reportGroup (number : Nat) (id : GroupId) (old new : Nat) :
    (reportGroup number id old new : Act S Unit).Preserves P E := by
  refine (hP.requireThread _).bind fun _ => fun h hh => ?_
  simp only [ends_bind, ends_seat?]
  cases hseat : h.state.managers.get? number with
  | none => exact hh
  | some seat =>
    simp only [ends_bind, ends_changeManager, ends_ofExcept]
    cases hreport : (seat.manager.report id old new).1 with
    | error f => exact hP.misreported hh hseat id old new
    | ok calls =>
      have hkept := hP.keep hh hseat (.report hreport) h.state.handles
      dsimp only
      split
      · exact hP.schedule number false _ hkept
      · exact hkept

theorem reportHandle (handle : GroupHandle) (old new : Nat) :
    (reportHandle handle old new : Act S Unit).Preserves P E := by
  refine preserves_residents.bind fun r => ?_
  split
  · exact hP.reportGroup _ _ old new
  · exact .pure _

theorem releaseHandle (handle : GroupHandle) :
    (releaseHandle handle : Act S Unit).Preserves P E := by
  refine preserves_residents.bind fun r => ?_
  split
  · exact hP.removeGroup _ _
  · exact .pure _

/-! ## Managers come -/

theorem newManager (owner : StubOwner S) (source : ConfigSource) :
    (newManager owner source).Preserves P E := by
  unfold Host.newManager
  split
  · exact .pure _
  · next config _ =>
    intro h hh
    simp only [ends_bind, ends_residents]
    split
    · exact hh
    · exact hP.gated (hP.managerMade hh owner config (h.state.proxies.add {}).1)
        (.gains (Roster.gains_add ..))

/-! ## What calls back -/

section Callbacks

variable {run : S → Act S Unit} (hrun : ∀ script, (run script).Preserves P E)

/-- A pass that comes to its manager's turn, if the manager is still there. -/
theorem runPass (hmanage : ∀ number, (Host.manage run number).Preserves P E) (number : Nat) :
    (runPass run number).Preserves P E := by
  refine preserves_residents.bind fun r => ?_
  split
  · exact hP.holding _ (hmanage number)
  · exact .pure _

/-- A pass preserves what survives it once it has started, if it does start. -/
theorem manage_of {h : Host S} (hh : P h) {number : Nat}
    (hstart : ∀ seat, h.state.managers.get? number = some seat →
      seat.manager.shutDown = false → P (Host.cleared h number seat) →
        (Host.manage run number).Ends h (fun _ => P) fun _ => E) :
    (Host.manage run number).Ends h (fun _ => P) fun _ => E := by
  have hhalted := hP.halted h hh
  cases hseat : h.state.managers.get? number with
  | none =>
    rw [ends_manage_of_none hseat]
    split <;> assumption
  | some seat =>
    have hcleared := hP.keep hh hseat (.clear h.state.handles)
      (seat.manager.clearWaiting h.state.handles).2
    cases hdown : seat.manager.shutDown with
    | true =>
      rw [ends_manage_of_shutDown hseat hdown]
      split <;> assumption
    | false => exact hstart seat hseat hdown hcleared

include hrun

/-- A pass preserves what looks neither at managers nor at stubs, nor at what is seen of passes. -/
theorem manage (hsee : ∀ h (e : Event S), e.isCall = false → e.isFade = false → P h →
      P { h with state := { h.state with events := e :: h.state.events } })
    (hmanagers : ∀ h managers, P h → P { h with state := { h.state with managers } })
    (hstubs : ∀ h stubs, P h → P { h with state := { h.state with stubs } }) (number : Nat) :
    (Host.manage run number).Preserves P E := by
  have hpass : PassStable run (fun _ => True) P E :=
    { halted := hP.halted
      emit := fun _ hcall hfade h hh => hsee h _ hcall hfade hh
      run := fun _ => hrun _
      onEnumerate := fun _ _ => trivial
      onRequest := fun _ _ => trivial
      onGrant := fun _ _ => trivial
      grant := fun _ _ h hh => hstubs h _ hh
      count := fun _ h hh => hmanagers h _ hh
      publish := fun hh _ _ _ _ _ _ => hmanagers _ _ hh }
  intro h hh
  exact hP.manage_of hh fun seat hseat _ hcleared =>
    hpass.manage hseat (fun _ => hcleared) (fun _ => hsee _ _ rfl rfl hcleared) (hP.halted h hh)

/-- **Running a task** preserves what passes preserve, and checks and frames do, if it is one. -/
theorem runTask (hmanage : ∀ number, (Host.manage run number).Preserves P E) {task : Task S}
    (hcheck : ∀ number, task.checks number = true → (runCheck run number).Preserves P E)
    (hframe : ∀ fade : Fade S, task.fades fade.name = true → (runFrame run fade).Preserves P E) :
    (runTask run task).Preserves P E := by
  induction task with
  | scripted label script =>
    exact preserves_now.bind fun _ => (hP.emit rfl rfl rfl).bind fun _ => hrun script
  | guarded handle task ih =>
    refine preserves_residents.bind fun r => ?_
    split
    · exact .pure _
    · exact ih hcheck hframe
  | proxied proxy task ih =>
    refine preserves_residents.bind fun r => ?_
    split
    · exact preserves_change fun _ hh => hP.gated hh (.update fun _ _ => id)
    · exact ih hcheck hframe
  | check limiter => exact hcheck limiter (beq_self_eq_true limiter)
  | pass manager => exact hP.runPass hmanage manager
  | frame fade => exact hframe fade (beq_self_eq_true fade.name)

end Callbacks

end Lasting

namespace Enduring

variable {P E : Host S → Prop} (hP : Enduring P E)

include hP

/-! ## Fades -/

theorem changeScrollbar (name : String) (f : Scrollbar → Scrollbar) :
    (changeScrollbar name f : Act S Reply).Preserves P E :=
  preserves_lookUp fun number => .bind (preserves_change fun _ hh => hP.barChanged hh number f)
    fun _ => .pure _

theorem postFrame (fade : Fade S) (delay : Nanos) : (postFrame fade delay).Preserves P E :=
  fun h hh => ends_post_cases (fun _ => hP.framePosted hh fade) hh fun _ => hP.halted h hh

theorem startFade (name proxy : String) (interval : Nanos) (onFrame : S) :
    (startFade name proxy interval onFrame).Preserves P E := by
  refine preserves_residents.bind fun r => ?_
  split
  · exact (hP.postFrame _ _).bind fun _ => .pure _
  · exact .pure _

section Callbacks

variable {run : S → Act S Unit} (hrun : ∀ script, (run script).Preserves P E)

include hrun

theorem runFrame (fade : Fade S) : (runFrame run fade).Preserves P E :=
  preserves_runFrame hrun (hP.animate fade.scrollbar)
    (fun _ _ => preserves_change fun _ hh => hP.fadeSeen hh ..) (hP.postFrame fade fade.interval)

/-- **Running a task** preserves what passes preserve, and checks do, if it is one. -/
theorem runTask (hmanage : ∀ number, (Host.manage run number).Preserves P E) {task : Task S}
    (hcheck : ∀ number, task.checks number = true → (runCheck run number).Preserves P E) :
    (runTask run task).Preserves P E :=
  hP.toLasting.runTask hrun hmanage hcheck fun fade _ => hP.runFrame hrun fade

end Callbacks

end Enduring

/-- **What calls back preserves the property**: passes, calls of limiters, and the tasks that are
taken out of the queue or were kept beside it. -/
structure CallsBack (run : S → Act S Unit) (P E : Host S → Prop) : Prop where
  manage (number : Nat) : (Host.manage run number).Preserves P E
  limitNow (number : Nat) : (Host.limitNow run number).Preserves P E
  due {h : Host S} {task : Task S} {queue : TaskQueue (Task S)} (hP : P h)
    (hpop : h.queue.popNext = some (task, queue)) :
    (runTask run task).Ends { h with queue } (fun _ => P) fun _ => E
  held {h : Host S} {name : String} {task : Task S} (hP : P h)
    (htask : h.state.heldTasks.find? name = some task) :
    (runTask run task).Ends
      { h with state := { h.state with heldTasks := h.state.heldTasks.erase name } }
      (fun _ => P) fun _ => E

/-- **A property that looks neither at managers nor at stubs** is preserved by what calls back, if
it survives whatever is seen, and checks that are posted. -/
theorem Enduring.callsBack {run : S → Act S Unit} {P E : Host S → Prop} (hP : Enduring P E)
    (hrun : ∀ script, (run script).Preserves P E)
    (hsee : ∀ h (e : Event S), P h →
      P { h with state := { h.state with events := e :: h.state.events } })
    (hcheck : ∀ h proxy number delay, P h →
      P { h with queue := h.queue.accept (.proxied proxy (.check number)) delay })
    (hmanagers : ∀ h managers, P h → P { h with state := { h.state with managers } })
    (hstubs : ∀ h stubs, P h → P { h with state := { h.state with stubs } }) :
    CallsBack run P E := by
  have hmanage := hP.manage hrun (fun h e _ _ => hsee h e) hmanagers hstubs
  have hlimit (number : Nat) : (limitNow run number).Preserves P E :=
    preserves_limitNow (fun _ => preserves_callTargets hP.holding (fun h _ hh _ => hsee h _ hh)
      (fun h _ hh _ => hsee h _ hh) hrun) (hP.stopLimiter number)
  have hpost (number : Nat) (delay : Nanos) : (postCheck number delay).Preserves P E := by
    refine preserves_residents.bind fun r => ?_
    split
    · exact .pure _
    · exact .map (fun h hh => ends_post_cases (fun _ _ => hcheck h _ number delay hh) hh
        fun _ => hP.halted h hh) _
  have htask (task : Task S) : (Host.runTask run task).Preserves P E :=
    hP.runTask hrun hmanage fun number _ => preserves_runCheck (hlimit number) (hpost number)
  refine ⟨hmanage, hlimit, fun hh hpop => ?_, fun hh _ => htask _ _ (hP.released hh _)⟩
  obtain ⟨q, rest, hpending, rfl, rfl⟩ := TaskQueue.popNext_eq_some.1 hpop
  exact htask _ _ (hP.taken hh hpending)

/-- A task that was kept is run, once. -/
theorem CallsBack.runHeld {run : S → Act S Unit} {P E : Host S → Prop} (h : CallsBack run P E)
    (name : String) : (runHeld run name).Preserves P E := by
  intro g hg
  unfold Host.runHeld withNamed
  rw [ends_bind, ends_residents]
  cases htask : g.state.heldTasks.find? name with
  | none => exact hg
  | some task =>
    simp only [ends_bind, ends_change]
    exact h.held hg htask

end Host

end Compositor
