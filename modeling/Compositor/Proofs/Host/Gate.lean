import Compositor.Proofs.Host.Limiting

/-!
# What becomes of tasks behind a gate

On a host with a single gate every task is posted through it. A task that the queue
accepted waits there until it is taken out, and then the gate decides: if it is open the
body begins, and if it is shut the task is dropped and counted. Neither the gate nor the
queue remembers any of this, so a *chronicle* is written beside them, of the tasks that were
accepted, that began and that were dropped, and of the moment when the gate was shut
(`Chronicle`).

A move at the gate is one of these (`Move`), and a stretch of what goes on at a host has a
chronicle if it is made of moves, and of whatever leaves queue, gate and observed runs alone
(`Passes`). The moves are those of the queue and of the gate themselves. So what a single
move does is all that has to be known of them, and an induction over the stretch gives what
every chronicle has in common: where the gate is shut nothing begins, where it is open
nothing is dropped, and all that was accepted is accounted for.
-/

namespace Compositor

/-- What happens at a gate. -/
inductive Passage (S : Type) where
  /-- The queue accepted a task. -/
  | accepted (task : Pending (Task S))
  /-- The body of a task began, and the observer saw its label and the time. -/
  | began (label : String) (now : Nanos) (task : Pending (Task S))
  /-- A task was dropped. -/
  | dropped (task : Pending (Task S))
  /-- The gate was shut. -/
  | shut

namespace Passage

variable {S : Type}

def accepted? : Passage S → Option (Pending (Task S))
  | accepted p => some p
  | _ => none

def began? : Passage S → Option (Pending (Task S))
  | began _ _ p => some p
  | _ => none

/-- What the observer saw of it: the label of a task that ran, and when. -/
def seen? : Passage S → Option (String × Nanos)
  | began label now _ => some (label, now)
  | _ => none

def dropped? : Passage S → Option (Pending (Task S))
  | dropped p => some p
  | _ => none

/-- Whether it is the moment when the gate was shut. -/
def isShut : Passage S → Bool
  | shut => true
  | _ => false

end Passage

/-- The label of a task that ran, and when. -/
def Event.run? {S : Type} : Event S → Option (String × Nanos)
  | .run label now => some (label, now)
  | _ => none

/-- What happened at a gate, in order. -/
abbrev Chronicle (S : Type) : Type := List (Passage S)

namespace Chronicle

variable {S : Type}

/-- The tasks that were accepted, in order. -/
def accepted (cs : Chronicle S) : List (Pending (Task S)) := cs.filterMap Passage.accepted?

/-- The tasks whose bodies began, in order. -/
def began (cs : Chronicle S) : List (Pending (Task S)) := cs.filterMap Passage.began?

/-- What the observer saw of the tasks whose bodies began, in order. -/
def seen (cs : Chronicle S) : List (String × Nanos) := cs.filterMap Passage.seen?

/-- The tasks that were dropped, in order. -/
def dropped (cs : Chronicle S) : List (Pending (Task S)) := cs.filterMap Passage.dropped?

/-- How often the gate was shut. -/
def shuts (cs : Chronicle S) : Nat := cs.countP Passage.isShut

end Chronicle

namespace Host

open Compositor.Action

variable {S : Type}

/-- The gate of a host that has no other. -/
def gate? (h : Host S) : Option Proxy := h.state.proxies.get? 0

/-- What the observer saw of the tasks that ran, in order. -/
def ran (h : Host S) : List (String × Nanos) := (h.state.events.filterMap Event.run?).reverse

/-- Queue and gate were left alone, and no task was seen to run. The clock may have been moved,
and the queue may accept posts or not. -/
structure SameGate (h h' : Host S) : Prop where
  pending : h'.queue.pending = h.queue.pending
  next : h'.queue.next = h.queue.next
  gate : h'.gate? = h.gate?
  ran : h'.ran = h.ran

/-- The host when the body of its first task begins. -/
def withBegin (h : Host S) (p : Pending (Task S)) (rest : List (Pending (Task S)))
    (label : String) : Host S :=
  { queue := h.queue.without p rest
    state := { h.state with
      events := .run label (h.queue.without p rest).now :: h.state.events } }

/-- The host when its first task was dropped. -/
def withDrop (h : Host S) (p : Pending (Task S)) (rest : List (Pending (Task S))) : Host S :=
  { queue := h.queue.without p rest
    state := { h.state with proxies := h.state.proxies.update 0 Proxy.drop } }

/-- The host with its gate shut. -/
def withShut (h : Host S) : Host S :=
  { h with state := { h.state with
    proxies := h.state.proxies.update 0 fun p => { p with shutDown := true } } }

@[simp] theorem gate?_withDrop (h : Host S) (p : Pending (Task S))
    (rest : List (Pending (Task S))) : (h.withDrop p rest).gate? = h.gate?.map Proxy.drop :=
  Roster.get?_update_self ..

@[simp] theorem gate?_withShut (h : Host S) :
    h.withShut.gate? = h.gate?.map fun p => { p with shutDown := true } :=
  Roster.get?_update_self ..

/-- A gate that counts a task is as open as it was. -/
theorem shutDown_withDrop (h : Host S) (p : Pending (Task S)) (rest : List (Pending (Task S))) :
    (h.withDrop p rest).gate?.map Proxy.shutDown = h.gate?.map Proxy.shutDown := by
  rw [gate?_withDrop, Option.map_map]
  rfl

theorem shutDown_withShut {h : Host S} {open? : Bool}
    (hgate : h.gate?.map Proxy.shutDown = some open?) :
    h.withShut.gate?.map Proxy.shutDown = some true := by
  obtain ⟨p, hp, -⟩ := Option.map_eq_some_iff.1 hgate
  rw [gate?_withShut, hp]
  rfl

/-- **One move at the gate.** A task is accepted when the queue says so. The first task of the
queue is taken out, and it begins if the gate is open, and is dropped if the gate is shut.
The gate is shut while it is open, on the runner's own thread. -/
inductive Move (h : Host S) : Passage S → Host S → Prop where
  | accept {queue : TaskQueue (Task S)} (task : Task S) (delay : Nanos)
    (hpost : h.queue.post task delay = .ok (true, queue)) :
    Move h (.accepted (h.queue.posted task delay)) { h with queue }
  | begin {p : Pending (Task S)} {rest : List (Pending (Task S))} {label : String} {script : S}
    (hpending : h.queue.pending = p :: rest) (htask : p.task = .proxied 0 (.scripted label script))
    (hopen : h.gate?.map Proxy.shutDown = some false) :
    Move h (.began label (h.queue.without p rest).now p) (h.withBegin p rest label)
  | drop {p : Pending (Task S)} {rest : List (Pending (Task S))}
    (hpending : h.queue.pending = p :: rest) (hshut : h.gate?.map Proxy.shutDown = some true) :
    Move h (.dropped p) (h.withDrop p rest)
  | shut (hthread : h.state.onThread = true) (hopen : h.gate?.map Proxy.shutDown = some false) :
    Move h .shut h.withShut

/-- **A chronicle of what went on between two hosts**, move by move. -/
inductive Passes : Host S → Chronicle S → Host S → Prop where
  | nothing (h : Host S) : Passes h [] h
  | beside {h h₁ h' : Host S} {cs : Chronicle S} (hsame : SameGate h h₁)
    (hrest : Passes h₁ cs h') : Passes h cs h'
  | move {h h₁ h' : Host S} {c : Passage S} {cs : Chronicle S} (hmove : Move h c h₁)
    (hrest : Passes h₁ cs h') : Passes h (c :: cs) h'

/-! ## Open and shut -/

namespace Move

variable {h h' : Host S} {c : Passage S}

/-- Behind a gate that is shut no body begins, and the gate stays shut. -/
theorem of_shut (hmove : Move h c h') (hshut : h.gate?.map Proxy.shutDown = some true) :
    h'.gate?.map Proxy.shutDown = some true ∧ c.began? = none ∧ c.isShut = false := by
  cases hmove with
  | accept => exact ⟨hshut, rfl, rfl⟩
  | begin _ _ hopen => cases hopen.symm.trans hshut
  | drop => exact ⟨(shutDown_withDrop ..).trans hshut, rfl, rfl⟩
  | shut _ hopen => cases hopen.symm.trans hshut

/-- Where the gate is open afterwards it was open before, and nothing was dropped. -/
theorem of_open (hmove : Move h c h') (hopen : h'.gate?.map Proxy.shutDown = some false) :
    h.gate?.map Proxy.shutDown = some false ∧ c.dropped? = none ∧ c.isShut = false := by
  cases hmove with
  | accept => exact ⟨hopen, rfl, rfl⟩
  | begin => exact ⟨hopen, rfl, rfl⟩
  | drop _ hshut => cases hopen.symm.trans ((shutDown_withDrop ..).trans hshut)
  | shut _ hopen' => cases hopen.symm.trans (shutDown_withShut hopen')

end Move

namespace Passes

variable {h h₁ h' : Host S} {c : Passage S} {cs ds : Chronicle S}

/-- One stretch after the other. -/
theorem trans (hcs : Passes h cs h₁) (hds : Passes h₁ ds h') : Passes h (cs ++ ds) h' := by
  induction hcs with
  | nothing => exact hds
  | beside hsame _ ih => exact .beside hsame (ih hds)
  | move hmove _ ih => exact .move hmove (ih hds)

/-- The first move of a chronicle, after what went on beside it. -/
theorem of_cons (hcs : Passes h (c :: cs) h') :
    ∃ h₁ h₂, Passes h [] h₁ ∧ Move h₁ c h₂ ∧ Passes h₂ cs h' := by
  generalize hall : c :: cs = all at hcs
  induction hcs with
  | nothing => cases hall
  | beside hsame _ ih =>
    obtain ⟨h₁, h₂, hbefore, hrest⟩ := ih hall
    exact ⟨h₁, h₂, .beside hsame hbefore, hrest⟩
  | move hmove hrest =>
    obtain ⟨rfl, rfl⟩ := List.cons.inj hall
    exact ⟨_, _, .nothing _, hmove, hrest⟩

/-- A chronicle of two parts is that of two stretches. -/
theorem of_append (hboth : Passes h (cs ++ ds) h') : ∃ h₁, Passes h cs h₁ ∧ Passes h₁ ds h' := by
  induction cs generalizing h with
  | nil => exact ⟨h, .nothing h, hboth⟩
  | cons c cs ih =>
    obtain ⟨h₁, h₂, hbefore, hmove, hrest⟩ := of_cons hboth
    obtain ⟨h₃, hfirst, hlast⟩ := ih hrest
    exact ⟨h₃, hbefore.trans (.move hmove hfirst), hlast⟩

/-- **Behind a gate that is shut** no body begins, and the gate stays shut. -/
theorem of_shut (hcs : Passes h cs h') (hshut : h.gate?.map Proxy.shutDown = some true) :
    h'.gate?.map Proxy.shutDown = some true ∧ ∀ c ∈ cs, c.began? = none ∧ c.isShut = false := by
  induction hcs with
  | nothing => exact ⟨hshut, List.forall_mem_nil _⟩
  | beside hsame _ ih => exact ih (hsame.gate ▸ hshut)
  | move hmove _ ih =>
    obtain ⟨hstays, hfirst⟩ := hmove.of_shut hshut
    obtain ⟨hend, hrest⟩ := ih hstays
    exact ⟨hend, List.forall_mem_cons.2 ⟨hfirst, hrest⟩⟩

/-- **Before a gate that is open** nothing was dropped: it was open all the time. -/
theorem of_open (hcs : Passes h cs h') (hopen : h'.gate?.map Proxy.shutDown = some false) :
    h.gate?.map Proxy.shutDown = some false ∧ ∀ c ∈ cs, c.dropped? = none ∧ c.isShut = false := by
  induction hcs with
  | nothing => exact ⟨hopen, List.forall_mem_nil _⟩
  | beside hsame _ ih =>
    obtain ⟨hbefore, hrest⟩ := ih hopen
    exact ⟨hsame.gate ▸ hbefore, hrest⟩
  | move hmove _ ih =>
    obtain ⟨hbefore, hrest⟩ := ih hopen
    obtain ⟨hopen, hfirst⟩ := hmove.of_open hbefore
    exact ⟨hopen, List.forall_mem_cons.2 ⟨hfirst, hrest⟩⟩

/-- The gate is open until it is shut, and it is shut from then on. -/
theorem of_shut_cons (hcs : Passes h (.shut :: cs) h') :
    h.gate?.map Proxy.shutDown = some false ∧
      ∃ h₁, h₁.gate?.map Proxy.shutDown = some true ∧ Passes h₁ cs h' := by
  obtain ⟨h₁, h₂, hbefore, hmove, hrest⟩ := hcs.of_cons
  cases hmove with
  | shut _ hopen => exact ⟨(hbefore.of_open hopen).1, _, shutDown_withShut hopen, hrest⟩

end Passes

/-! ## Accounts -/

/-- **A chronicle accounts for a stretch.** The tasks that were accepted were numbered one by
one. What waited before and what was accepted is what waits now, what began and what was
dropped. The gate counted what was dropped, and it is shut if it was shut before or if it was
shut meanwhile, which it was once at most. What began was seen to run. -/
structure Accounts (h : Host S) (cs : Chronicle S) (h' : Host S) : Prop where
  numbers : cs.accepted.map Pending.number = List.range' h.queue.next cs.accepted.length
  next : h'.queue.next = h.queue.next + cs.accepted.length
  conserved : (h.queue.pending ++ cs.accepted).Perm (h'.queue.pending ++ cs.began ++ cs.dropped)
  counted : h'.gate?.map Proxy.dropped = h.gate?.map fun p => p.dropped + cs.dropped.length
  shut : h'.gate?.map (fun p => p.shutDown.toNat)
    = h.gate?.map fun p => p.shutDown.toNat + cs.shuts
  seen : h'.ran = h.ran ++ cs.seen

/-- What is in front of a task may be put behind it. -/
theorem perm_accept {τ : Type} {queue : TaskQueue τ} {task : τ} {delay : Nanos}
    (accepted : List (Pending τ)) :
    (queue.pending ++ queue.posted task delay :: accepted).Perm
      ((queue.accept task delay).pending ++ accepted) :=
  List.perm_middle.trans ((TaskQueue.insert_perm ..).symm.append_right _)

/-- What is left alone is accounted for. -/
theorem Accounts.beside {h h₁ h' : Host S} {cs : Chronicle S} (hrest : Accounts h₁ cs h')
    (hsame : SameGate h h₁) : Accounts h cs h' := by
  have ⟨hnumbers, hnext, hconserved, hcounted, hshut, hseen⟩ := hrest
  rw [hsame.next] at hnumbers hnext
  rw [hsame.pending] at hconserved
  rw [hsame.gate] at hcounted hshut
  rw [hsame.ran] at hseen
  exact ⟨hnumbers, hnext, hconserved, hcounted, hshut, hseen⟩

/-- **A move is accounted for** before all that comes after it. -/
theorem Accounts.move {h h₁ h' : Host S} {c : Passage S} {cs : Chronicle S}
    (hrest : Accounts h₁ cs h') (hmove : Move h c h₁) : Accounts h (c :: cs) h' := by
  have ⟨hnumbers, hnext, hconserved, hcounted, hshut, hseen⟩ := hrest
  cases hmove with
  | accept task delay hpost =>
    obtain ⟨-, rfl⟩ := TaskQueue.post_eq_ok hpost
    have hnext : h'.queue.next = h.queue.next + 1 + cs.accepted.length := hnext
    refine ⟨congrArg (h.queue.next :: ·) hnumbers, ?_, ?_, hcounted, hshut, hseen⟩
    · show _ = h.queue.next + (cs.accepted.length + 1)
      omega
    · exact (perm_accept cs.accepted).trans hconserved
  | @begin p rest label script hpending =>
    refine ⟨hnumbers, hnext, ?_, hcounted, hshut, ?_⟩
    · rw [hpending]
      have hmoved : (p :: (h'.queue.pending ++ cs.began ++ cs.dropped)).Perm
          (h'.queue.pending ++ (p :: cs.began) ++ cs.dropped) :=
        (List.perm_middle.append_right _).symm
      exact (hconserved.cons p).trans hmoved
    · rw [hseen]
      unfold ran withBegin
      rw [List.filterMap_cons_some (show Event.run? (.run label _) = some _ from rfl),
        List.reverse_cons, List.append_assoc]
      rfl
  | @drop p rest hpending =>
    refine ⟨hnumbers, hnext, ?_, ?_, ?_, hseen⟩
    · rw [hpending]
      have hmoved : (p :: (h'.queue.pending ++ cs.began ++ cs.dropped)).Perm
          (h'.queue.pending ++ cs.began ++ (p :: cs.dropped)) :=
        List.perm_middle.symm
      exact (hconserved.cons p).trans hmoved
    · rw [hcounted, gate?_withDrop, Option.map_map]
      refine congrArg (Option.map · h.gate?) (funext fun g => ?_)
      show g.dropped + 1 + cs.dropped.length = g.dropped + (cs.dropped.length + 1)
      omega
    · rw [hshut, gate?_withDrop, Option.map_map]
      rfl
  | shut _ hopen =>
    refine ⟨hnumbers, hnext, hconserved, ?_, ?_, hseen⟩
    · rw [hcounted, gate?_withShut, Option.map_map]
      rfl
    · obtain ⟨g, hg, hopen⟩ := Option.map_eq_some_iff.1 hopen
      rw [hshut, gate?_withShut, hg]
      show some (1 + cs.shuts) = some (g.shutDown.toNat + Chronicle.shuts (.shut :: cs))
      rw [hopen]
      unfold Chronicle.shuts
      rw [List.countP_cons_of_pos rfl]
      exact congrArg some (by simp [Nat.add_comm])

/-- **Every chronicle accounts for its stretch.** -/
theorem Passes.accounts {h h' : Host S} {cs : Chronicle S} (hcs : Passes h cs h') :
    Accounts h cs h' := by
  induction hcs with
  | nothing h =>
    refine ⟨rfl, rfl, ?_, ?_, ?_, ?_⟩
    · show (h.queue.pending ++ []).Perm (h.queue.pending ++ [] ++ [])
      rw [List.append_nil, List.append_nil]
    · exact rfl
    · exact rfl
    · exact (List.append_nil _).symm
  | beside hsame _ ih => exact ih.beside hsame
  | move hmove _ ih => exact ih.move hmove

/-- Where nothing began, nothing was seen to run. -/
theorem Passes.ran_of_no_begin {h h' : Host S} {cs : Chronicle S} (hcs : Passes h cs h')
    (hnone : ∀ c ∈ cs, c.began? = none) : h'.ran = h.ran := by
  have hseen : cs.seen = [] := by
    refine List.filterMap_eq_nil_iff.2 fun c hc => ?_
    cases c with
    | began => cases hnone _ hc
    | accepted | dropped | shut => rfl
  rw [hcs.accounts.seen, hseen, List.append_nil]

/-- **The balance of a gate since it was new**, and of a chronicle. Every accepted task waits, has
begun or was dropped, one of these and once, since no number is used twice. The observer saw
what began, the gate counted what was dropped, and it is shut if it was shut, once.
Before that nothing was dropped, and nothing began after it. -/
structure Balance (cs : Chronicle S) (h : Host S) : Prop where
  numbers : cs.accepted.map Pending.number = List.range h.queue.next
  conserved : cs.accepted.Perm (h.queue.pending ++ cs.began ++ cs.dropped)
  seen : h.ran = cs.seen
  gate : ∃ p, h.gate? = some p ∧ p.dropped = cs.dropped.length ∧ p.shutDown.toNat = cs.shuts
  unshut : cs.shuts = 0 → ∀ c ∈ cs, c.dropped? = none
  shut {before after : Chronicle S} : cs = before ++ .shut :: after →
    (∀ c ∈ before, c.dropped? = none ∧ c.isShut = false) ∧
      ∀ c ∈ after, c.began? = none ∧ c.isShut = false

/-- Every chronicle since the gate was new balances. -/
theorem Passes.balance {h₀ h : Host S} {cs : Chronicle S} (hcs : Passes h₀ cs h)
    (hqueue : h₀.queue = {}) (hgate : h₀.gate? = some {}) (hran : h₀.ran = []) :
    Balance cs h := by
  have ⟨hnumbers, hnext, hconserved, hcounted, hshut, hseen⟩ := hcs.accounts
  rw [hgate] at hcounted hshut
  obtain ⟨p, hp, hdropped⟩ := Option.map_eq_some_iff.1 hcounted
  rw [hp] at hshut
  have hshuts : p.shutDown.toNat = cs.shuts := (Option.some.inj hshut).trans (Nat.zero_add _)
  rw [hqueue] at hnumbers hnext hconserved
  have hcount : h.queue.next = cs.accepted.length := hnext.trans (Nat.zero_add _)
  refine ⟨?_, hconserved, by rw [hseen, hran, List.nil_append],
    ⟨p, hp, hdropped.trans (Nat.zero_add _), hshuts⟩, fun hnone c hc => ?_, ?_⟩
  · rw [hnumbers, hcount, List.range_eq_range']
  · have hopen : h.gate?.map Proxy.shutDown = some false := by
      rw [hp, Option.map_some, Bool.toNat_eq_zero.1 (hshuts.trans hnone)]
    exact ((hcs.of_open hopen).2 c hc).1
  · rintro before after rfl
    obtain ⟨h₁, hbefore, hafter⟩ := hcs.of_append
    obtain ⟨hopen, h₂, hshut, hafter⟩ := hafter.of_shut_cons
    exact ⟨(hbefore.of_open hopen).2, (hafter.of_shut hshut).2⟩

/-! ## What a host does -/

/-- **Every task goes through the gate** and does what is good, and the host has no other gate. -/
structure SoleGate (Good : S → Prop) (pending : List (Pending (Task S))) (proxies : Roster Proxy) :
    Prop where
  posted {q : Pending (Task S)} (hq : q ∈ pending) :
    ∃ label script, q.task = .proxied 0 (.scripted label script) ∧ Good script
  names : proxies.Sound
  sole : proxies.members.length = 1

/-- **What went on since** another host has a chronicle, and every task goes through the gate. -/
def Chronicled (Good : S → Prop) (base h : Host S) : Prop :=
  SoleGate Good h.queue.pending h.state.proxies ∧ ∃ cs, Passes base cs h

section Chronicling

variable {Good : S → Prop} {base h h' : Host S}

theorem SoleGate.exists_gate {pending : List (Pending (Task S))} {proxies : Roster Proxy}
    (hG : SoleGate Good pending proxies) : ∃ p, proxies.get? 0 = some p :=
  ⟨_, List.getElem?_eq_getElem (hG.sole ▸ Nat.one_pos)⟩

theorem SoleGate.update {pending : List (Pending (Task S))} {proxies : Roster Proxy}
    (hG : SoleGate Good pending proxies) (f : Proxy → Proxy) :
    SoleGate Good pending (proxies.update 0 f) :=
  ⟨hG.posted, hG.names.update 0 f, (Roster.length_update ..).trans hG.sole⟩

/-- What goes on next has a chronicle, too. -/
theorem Chronicled.extend {cs : Chronicle S} (hC : Chronicled Good base h) (hcs : Passes h cs h')
    (hG : SoleGate Good h'.queue.pending h'.state.proxies) : Chronicled Good base h' := by
  obtain ⟨-, ds, hds⟩ := hC
  exact ⟨hG, ds ++ cs, hds.trans hcs⟩

theorem Chronicled.move {c : Passage S} (hC : Chronicled Good base h) (hmove : Move h c h')
    (hG : SoleGate Good h'.queue.pending h'.state.proxies) : Chronicled Good base h' :=
  hC.extend (.move hmove (.nothing h')) hG

/-- What happens beside queue and gate does not matter. -/
theorem Chronicled.beside (hC : Chronicled Good base h) (hsame : SameGate h h')
    (hnames : h'.state.proxies.Sound)
    (hsole : h'.state.proxies.members.length = h.state.proxies.members.length) :
    Chronicled Good base h' :=
  hC.extend (.beside hsame (.nothing h'))
    ⟨fun hq => hC.1.posted (hsame.pending ▸ hq), hnames, hsole.trans hC.1.sole⟩

/-- Nothing but what lives beside the gate is changed, and no task was seen to run. -/
theorem Chronicled.change (hC : Chronicled Good base h) {f : Residents S → Residents S}
    (hproxies : (f h.state).proxies = h.state.proxies)
    (hevents : (f h.state).events.filterMap Event.run? = h.state.events.filterMap Event.run?) :
    Chronicled Good base { h with state := f h.state } := by
  refine hC.beside ⟨rfl, rfl, ?_, ?_⟩ (hproxies ▸ hC.1.names) (by rw [hproxies])
  · exact congrArg (Roster.get? · 0) hproxies
  · exact congrArg List.reverse hevents

/-- **Posting through the gate**: the queue accepts the task or refuses it. -/
theorem preserves_postVia_chronicled (label : String) {script : S} (hgood : Good script)
    (delay : Nanos) :
    (postVia 0 (.scripted label script) delay : Act S Bool).Preserves (Chronicled Good base)
      (Chronicled Good base) := by
  refine preserves_post (fun _ => id) fun h accepted queue hC hpost => ?_
  cases accepted with
  | true =>
    refine hC.move (.accept _ delay hpost) ⟨fun hq => ?_, hC.1.names, hC.1.sole⟩
    obtain ⟨-, rfl⟩ := TaskQueue.post_eq_ok hpost
    rcases TaskQueue.mem_pending_accept.1 hq with rfl | hq
    · exact ⟨label, script, rfl, hgood⟩
    · exact hC.1.posted hq
  | false =>
    obtain ⟨-, rfl⟩ := TaskQueue.post_eq_ok hpost
    exact hC

/-- A task that is refused leaves no trace. -/
theorem postVia_of_refusing (hrefuses : h.queue.accepting = false) (proxy : Nat) (task : Task S)
    (delay : Nanos) : (postVia proxy task delay).on h = (.ok false, h) := by
  rw [on_eq_ok_iff]
  exact (ends_post_refusing hrefuses).2 ⟨rfl, rfl⟩

/-- **Shutting the gate.** It takes effect on the runner's own thread if the gate is open; any
other attempt faults and changes nothing. -/
theorem shutdownProxy_eq {p : Proxy} (hgate : h.gate? = some p) :
    (shutdownProxy 0 : Act S Unit).on h
      = if h.state.onThread then
          if p.shutDown then (.error (.fault .proxyShutdownTwice), h) else (.ok (), h.withShut)
        else (.error (.fault .proxyShutdownOffThread), h) := by
  have hgate : h.state.proxies.get? 0 = some p := hgate
  have hkept : (h.state.proxies.update 0 fun _ => p) = h.state.proxies :=
    Roster.update_eq_self hgate rfl
  have hshut : (h.state.proxies.update 0 fun _ => { p with shutDown := true })
      = h.state.proxies.update 0 fun p => { p with shutDown := true } :=
    Roster.update_congr hgate rfl
  have hon : (shutdownProxy 0 : Act S Unit).on h
      = (do
          change fun r => { r with
            proxies := r.proxies.update 0 fun _ => (p.shutdown h.state.onThread).2 }
          ofExcept (p.shutdown h.state.onThread).1 : Act S Unit).on h := by
    have hread : (residents : Act S (Residents S)).on h = (.ok h.state, h) := rfl
    unfold shutdownProxy
    rw [on_bind, hread]
    dsimp only
    rw [hgate]
  rw [hon, on_bind]
  unfold Proxy.shutdown
  cases h.state.onThread with
  | false => exact congrArg (fun proxies => (Except.error (Halt.fault .proxyShutdownOffThread),
      ({ h with state := { h.state with proxies } } : Host S))) hkept
  | true =>
    cases p.shutDown with
    | true => exact congrArg (fun proxies => (Except.error (Halt.fault .proxyShutdownTwice),
        ({ h with state := { h.state with proxies } } : Host S))) hkept
    | false => exact congrArg (fun proxies => (Except.ok (),
        ({ h with state := { h.state with proxies } } : Host S))) hshut

/-- **Shutting the gate** is a move if it takes effect; there is no other gate to shut. -/
theorem preserves_shutdownProxy_chronicled (number : Nat) :
    (shutdownProxy number : Act S Unit).Preserves (Chronicled Good base)
      (Chronicled Good base) := by
  intro h hC
  obtain ⟨p, hgate⟩ := hC.1.exists_gate
  by_cases hzero : number = 0
  · subst hzero
    unfold Ends
    rw [shutdownProxy_eq hgate]
    cases hthread : h.state.onThread with
    | false => exact hC
    | true =>
      cases hopen : p.shutDown with
      | true => exact hC
      | false =>
        have hopen : h.gate?.map Proxy.shutDown = some false :=
          Option.map_eq_some_iff.2 ⟨p, hgate, hopen⟩
        exact hC.move (.shut hthread hopen) (hC.1.update _)
  · have hnone : h.state.proxies.get? number = none :=
      List.getElem?_eq_none (by rw [hC.1.sole]; omega)
    unfold shutdownProxy
    rw [ends_bind, ends_residents, hnone]
    exact hC

/-- **The first task is taken out.** Its body begins if the gate is open, and else it is
dropped. -/
theorem ends_popped_chronicled {run : S → Act S Unit}
    (hrun : ∀ script, Good script →
      (run script).Preserves (Chronicled Good base) (Chronicled Good base))
    (h : Host S) (task : Task S) (queue : TaskQueue (Task S)) (hC : Chronicled Good base h)
    (hpop : h.queue.popNext = some (task, queue)) :
    (runTask run task).Ends { h with queue } (fun _ => Chronicled Good base)
      fun _ => Chronicled Good base := by
  obtain ⟨p, rest, hpending, rfl, rfl⟩ := TaskQueue.popNext_eq_some.1 hpop
  have hG : SoleGate Good rest h.state.proxies :=
    { hC.1 with posted := fun hq => hC.1.posted (hpending ▸ List.mem_cons_of_mem _ hq) }
  obtain ⟨label, script, htask, hgood⟩ := hC.1.posted (hpending ▸ List.mem_cons_self ..)
  rw [htask, ends_runTask_proxied]
  obtain ⟨g, hgate⟩ := hC.1.exists_gate
  split
  · next hopen =>
    have hbegan : Chronicled Good base (h.withBegin p rest label) :=
      hC.move (.begin hpending htask hopen) hG
    exact hrun script hgood _ hbegan
  · next hshut =>
    have hshut : h.gate?.map Proxy.shutDown = some true := by
      refine Option.map_eq_some_iff.2 ⟨g, hgate, ?_⟩
      rw [hgate, Option.map_some] at hshut
      simpa using hshut
    have hdropped : Move h (.dropped p) (h.withDrop p rest) := .drop hpending hshut
    exact hC.move hdropped (hG.update _)

end Chronicling

end Host

end Compositor
