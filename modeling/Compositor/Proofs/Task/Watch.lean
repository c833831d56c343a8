import Mathlib.Data.List.Chain
import Compositor.Proofs.Task.History
import Compositor.Proofs.Task.Mirroring

/-!
# When the clock goes back

To take a task out of the queue moves the clock ahead, or leaves it where it is. The one
operation that sets the clock is an advance: when nothing is due any more it sets the time that
it was to move to, and this time was fixed when the advance began. A task that it ran on the way
may have pumped the same loop and moved the clock further. Then the advance sets it back.

The body of a task is a tree of operations on its own loop, each of which may depend on all that
the task sees there. To speak of what the clock reads at every depth, the loop is *watched*: the
reading with which a task begins is noted beside the world, and so is the one after each operation
that came to its answer. The watch does not get in the way (`seen_watch`).
-/

namespace Compositor

namespace EventLoop

variable {τ σ : Type}

/-- **What a task does**: it looks at its loop and operates on it, as long as it likes, and may
fail. -/
inductive Body (τ σ : Type) where
  | done
  | fail (f : Fault)
  | look (rest : EventLoop τ σ → Body τ σ)
  | next (op : Operation τ σ) (rest : Body τ σ)

/-- Each operation that a body may come to is an allowed one. -/
def Body.Uses (allowed : Operation τ σ → Prop) : Body τ σ → Prop
  | done | fail _ => True
  | look rest => ∀ l, (rest l).Uses allowed
  | next op rest => allowed op ∧ rest.Uses allowed

/-- The operations that cannot take the clock past the time at which they begin. -/
def Operation.Stays : Operation τ σ → Prop
  | post .. | clear | change _ | runUntilIdle => True
  | advance _ | runNext => False

/-- Does what a body says, given what it sees of the world and a way to do an operation. -/
def Body.act {σ' : Type} (view : σ' → σ) (run : Operation τ σ → Act τ σ' Unit) :
    Body τ σ → Act τ σ' Unit
  | done => return ()
  | fail f => Action.fail f
  | look rest => do (rest (seen view (← get))).act view run
  | next op rest => do
    run op
    rest.act view run

/-- Runs a task, and whatever it pumps, down to some depth. -/
def runBody (body : τ → Body τ σ) : Nat → τ → Act τ σ Unit
  | 0, _ => throw .outOfFuel
  | depth + 1, task => (body task).act id fun op => op.act (runBody body depth) depth

/-- **The owner operates on the loop**, with some fuel each time, and goes on also if an operation
was halted. -/
def operate (body : τ → Body τ σ) (l : EventLoop τ σ) (ops : List (Nat × Operation τ σ)) :
    EventLoop τ σ :=
  ops.foldl (fun l (fuel, op) => ((op.act (runBody body fuel) fuel).on l).2) l

/-! ## The watch -/

/-- What the clock read at some point of a run. -/
inductive Reading (τ σ : Type) where
  /-- When a task began, or the watch. -/
  | begun (time : Nanos)
  /-- When an operation had come to its answer; and what it read when the operation began. -/
  | ended (op : Operation τ σ) (began time : Nanos)

def Reading.time : Reading τ σ → Nanos
  | begun time | ended _ _ time => time

/-- The world that tasks work on, and beside it what the clock read, the last reading first. -/
structure Watched (τ σ : Type) where
  world : σ
  readings : List (Reading τ σ)

/-- A loop that is watched from now on. -/
def watching (l : EventLoop τ σ) : EventLoop τ (Watched τ σ) :=
  ⟨l.queue, l.state, [.begun l.queue.now]⟩

/-- Notes what the clock reads. -/
def note (reading : Nanos → Reading τ σ) (l : EventLoop τ (Watched τ σ)) :
    EventLoop τ (Watched τ σ) :=
  { l with state := { l.state with readings := reading l.queue.now :: l.state.readings } }

/-- An operation on a loop, done to the loop with its watch. -/
def Operation.beside : Operation τ σ → Operation τ (Watched τ σ)
  | post task delay => post task delay
  | clear => clear
  | change f => change fun w => { w with world := f w.world }
  | runUntilIdle => runUntilIdle
  | advance span => advance span
  | runNext => runNext

/-- Does an operation, and notes what the clock reads when it has come to its answer. -/
def Operation.watched (exec : τ → Act τ (Watched τ σ) Unit) (fuel : Nat) (op : Operation τ σ) :
    Act τ (Watched τ σ) Unit := do
  let began := (← get).queue.now
  op.beside.act exec fuel
  modify (note (.ended op began))

/-- Runs a task under the watch. -/
def runWatched (body : τ → Body τ σ) : Nat → τ → Act τ (Watched τ σ) Unit
  | 0, _ => throw .outOfFuel
  | depth + 1, task => do
    modify (note .begun)
    (body task).act Watched.world fun op => op.watched (runWatched body depth) depth

/-- The owner operates on a loop that is watched. -/
def watch (body : τ → Body τ σ) (l : EventLoop τ (Watched τ σ))
    (ops : List (Nat × Operation τ σ)) : EventLoop τ (Watched τ σ) :=
  ops.foldl (fun l (fuel, op) => ((op.watched (runWatched body fuel) fuel).on l).2) l

/-- What the clock of a loop reads while its owner operates on it, in order. -/
def readings (body : τ → Body τ σ) (l : EventLoop τ σ) (ops : List (Nat × Operation τ σ)) :
    List (Reading τ σ) :=
  (watch body l.watching ops).state.readings.reverse

section Mirroring

open Compositor.Action

/-- An operation under the watch mirrors the operation, if the tasks that it runs do. -/
theorem mirrors_watched {exec' : τ → Act τ (Watched τ σ) Unit} {exec : τ → Act τ σ Unit}
    (hexec : ∀ task l, Mirrors (seen Watched.world) (exec' task) (exec task) l) (fuel : Nat)
    (op : Operation τ σ) (l : EventLoop τ (Watched τ σ)) :
    Mirrors (seen Watched.world) (op.watched exec' fuel) (op.act exec fuel) l := by
  have hact : Mirrors (seen Watched.world) (op.beside.act exec' fuel) (op.act exec fuel) l := by
    cases op with
    | post task delay => exact (mirrors_post task delay).map _
    | clear | change f => exact .write rfl
    | runUntilIdle => exact (mirrors_runUntilIdle hexec fuel).map _
    | advance span => exact (mirrors_advance hexec fuel span).map _
    | runNext => exact (mirrors_runNext hexec).map _
  exact hact.after fun _ => rfl

theorem Body.mirrors_act {run' : Operation τ σ → Act τ (Watched τ σ) Unit}
    {run : Operation τ σ → Act τ σ Unit}
    (hrun : ∀ op l, Mirrors (seen Watched.world) (run' op) (run op) l) (b : Body τ σ)
    (l : EventLoop τ (Watched τ σ)) :
    Mirrors (seen Watched.world) (b.act Watched.world run') (b.act id run) l := by
  induction b generalizing l with
  | done => exact .pure ()
  | fail f => exact .halt _
  | look rest ih => exact .read (ih _ l)
  | next op rest ih => exact .bind (hrun op l) fun _ => ih

theorem mirrors_runWatched (body : τ → Body τ σ) (depth : Nat) (task : τ)
    (l : EventLoop τ (Watched τ σ)) :
    Mirrors (seen Watched.world) (runWatched body depth task) (runBody body depth task) l := by
  induction depth generalizing task l with
  | zero => exact .halt _
  | succ depth ih =>
    exact .before rfl (Body.mirrors_act (fun op l => mirrors_watched ih depth op l) (body task) _)

/-- **The watch does not get in the way**: the loop is seen to be what it is without. -/
theorem seen_watch (body : τ → Body τ σ) (l : EventLoop τ (Watched τ σ))
    (ops : List (Nat × Operation τ σ)) :
    seen Watched.world (watch body l ops) = operate body (seen Watched.world l) ops := by
  induction ops generalizing l with
  | nil => rfl
  | cons first ops ih =>
    obtain ⟨fuel, op⟩ := first
    have hfirst := mirrors_watched (mirrors_runWatched body fuel) fuel op l
    unfold watch operate at ih ⊢
    rw [List.foldl_cons, List.foldl_cons, ih]
    exact congrArg (fun l => List.foldl _ l ops) (congrArg Prod.snd hfirst).symm

end Mirroring

/-! ## What the readings keep to -/

/-- **The readings are tracked**: the clock has not gone back behind some time, nor behind the
last reading; the readings follow one another as they may; and no operation ended before it
began, an advance even at the time that it was to move to. -/
structure Tracked (follows : Reading τ σ → Reading τ σ → Prop) (within : Nanos → Prop)
    (since now : Nanos) (readings : List (Reading τ σ)) : Prop where
  ahead : since ≤ now
  inside : within now
  last : ∀ r ∈ readings.head?, r.time ≤ now
  ordered : readings.IsChain fun s r => follows r s
  ends : ∀ op began time, .ended op began time ∈ readings →
    began ≤ time ∧ ∀ span, op = .advance span → time = began + span

/-- The readings of a loop are tracked. -/
def Tracks (follows : Reading τ σ → Reading τ σ → Prop) (within : Nanos → Prop) (since : Nanos)
    (l : EventLoop τ (Watched τ σ)) : Prop :=
  Tracked follows within since l.queue.now l.state.readings

namespace Tracked

variable {follows : Reading τ σ → Reading τ σ → Prop} {within : Nanos → Prop}
  {since began now : Nanos} {readings : List (Reading τ σ)}

/-- Who has not gone back behind a time has not gone back behind an earlier one. -/
theorem mono (h : Tracked follows within began now readings) (hle : since ≤ began) :
    Tracked follows within since now readings :=
  { h with ahead := Nat.le_trans hle h.ahead }

theorem widen (h : Tracked follows within since now readings) :
    Tracked follows (fun _ => True) since now readings :=
  { h with inside := trivial }

/-- The clock may be moved ahead. -/
theorem moved (h : Tracked follows within since now readings) {later : Nanos} (hle : now ≤ later)
    (hinside : within later) : Tracked follows within since later readings :=
  { h with
    ahead := Nat.le_trans h.ahead hle
    inside := hinside
    last := fun r hr => Nat.le_trans (h.last r hr) hle }

/-- A reading may be noted where it is allowed to follow the last one, and the clock set to it. -/
theorem noted (h : Tracked follows within since now readings) {s : Reading τ σ}
    (hahead : since ≤ s.time) (hinside : within s.time)
    (hfollows : ∀ r, r.time ≤ now → follows r s)
    (hends : ∀ op began time, s = .ended op began time →
      began ≤ time ∧ ∀ span, op = .advance span → time = began + span) :
    Tracked follows within since s.time (s :: readings) where
  ahead := hahead
  inside := hinside
  last r hr := by
    cases hr
    exact Nat.le_refl _
  ordered := h.ordered.cons fun r hr => hfollows r (h.last r hr)
  ends op began time hmem := by
    rcases List.mem_cons.1 hmem with heq | hold
    · exact hends op began time heq.symm
    · exact h.ends op began time hold

end Tracked

section Operations

variable {follows : Reading τ σ → Reading τ σ → Prop} {within : Nanos → Prop} {since : Nanos}
  {l : EventLoop τ (Watched τ σ)} {exec : τ → Act τ (Watched τ σ) Unit}

/-- A task may be taken out if it is due within. -/
theorem Tracks.take (h : Tracks follows within since l) {p : Pending τ}
    (rest : List (Pending τ)) (hdue : within p.due) :
    Tracks follows within since (l.taken p rest) := by
  have hinside : within (max l.queue.now p.due) := by
    rcases Nat.le_total l.queue.now p.due with hle | hle
    · rwa [Nat.max_eq_right hle]
    · rw [Nat.max_eq_left hle]
      exact h.inside
  exact h.moved (Nat.le_max_left ..) hinside

/-- What holds of an operation from its own begin on holds from any earlier time on. -/
theorem Tracks.fromNow (h : Tracks follows within since l) :
    Tracks follows within l.queue.now l :=
  { h with ahead := Nat.le_refl _ }

/-- An operation that is no advance is noted with what the clock reads when it ends. -/
theorem Tracks.ends_watched (h : Tracks follows within since l)
    (hfollows : ∀ r s : Reading τ σ, r.time ≤ s.time → follows r s) {op : Operation τ σ}
    {fuel : Nat} (hop : ∀ span, op ≠ .advance span)
    (hact : (op.beside.act exec fuel).Ends l (fun _ => Tracks follows within l.queue.now)
      fun _ => Tracks follows within l.queue.now) :
    (op.watched exec fuel).Ends l (fun _ => Tracks follows within since)
      fun _ => Tracks follows within since := by
  unfold Operation.watched
  simp only [Action.ends_bind, Action.ends_get, Action.ends_modify]
  refine hact.imp (fun _ l' hl' => ?_) fun _ _ hl' => hl'.mono h.ahead
  refine (hl'.noted (s := .ended op l.queue.now l'.queue.now) hl'.ahead hl'.inside
    (fun r hr => hfollows r _ hr) ?_).mono h.ahead
  rintro _ _ _ ⟨⟩
  exact ⟨hl'.ahead, fun span hspan => absurd hspan (hop span)⟩

/-- A post leaves the clock alone. -/
theorem Tracks.ends_post (h : Tracks follows within since l) (task : τ) (delay : Nanos) :
    (EventLoop.post task delay).Ends l (fun _ => Tracks follows within since)
      fun _ => Tracks follows within since := by
  unfold EventLoop.post
  simp only [Action.ends_bind, Action.ends_get, Action.ends_ofExcept]
  cases hpost : l.queue.post task delay with
  | error f => exact h
  | ok posted =>
    obtain ⟨accepted, queue⟩ := posted
    obtain ⟨-, rfl⟩ := TaskQueue.post_eq_ok hpost
    cases accepted <;> exact h

section Pumps

variable (hexec : ∀ since task, (exec task).Preserves (Tracks follows within since)
  (Tracks follows within since))

include hexec

/-- Whatever is due by a deadline may be run if the deadline is within. -/
theorem Tracks.settles_runDue {deadline : Nanos} (hin : ∀ t, t ≤ deadline → within t) (fuel : Nat)
    (h : Tracks follows within since l) :
    (runDue exec deadline fuel).Ends l
      (fun _ l' => Tracks follows within since l' ∧ l'.queue.popDue deadline = none)
      fun _ => Tracks follows within since := by
  refine settles_runDue_or (fun _ hl => hl) deadline (fun l task queue hl hpop => ?_) fuel h
  obtain ⟨p, rest, -, hdue, rfl, rfl⟩ := TaskQueue.popDue_eq_some.1 hpop
  exact hexec since p.task _ (hl.take rest (hin p.due hdue))

variable (hfollows : ∀ r s : Reading τ σ, r.time ≤ s.time → follows r s)

include hfollows

/-- **An operation that does not go past the time at which it begins** is noted as it should be. -/
theorem preserves_watched_stays (hdown : ∀ a b, a ≤ b → within b → within a) {op : Operation τ σ}
    (hop : op.Stays) (fuel : Nat) (since : Nanos) :
    (op.watched exec fuel).Preserves (Tracks follows within since)
      (Tracks follows within since) := by
  intro l hl
  refine hl.ends_watched hfollows (by rintro span rfl; exact hop) ?_
  cases op with
  | post task delay => exact (Action.ends_map ..).2 (hl.fromNow.ends_post task delay)
  | clear | change => exact hl.fromNow
  | runUntilIdle =>
    refine (Action.ends_map ..).2 ?_
    unfold EventLoop.runUntilIdle
    simp only [Action.ends_bind, Action.ends_get]
    exact (hl.fromNow.settles_runDue hexec (fun t ht => hdown t _ ht hl.inside) fuel).imp
      (fun _ _ hsettled => hsettled.1) fun _ _ hl' => hl'
  | advance span | runNext => exact hop.elim

/-- Running the next task is noted as it should be, if the clock may go anywhere. -/
theorem preserves_watched_runNext (hall : ∀ t, within t) (fuel : Nat) (since : Nanos) :
    (Operation.runNext.watched exec fuel).Preserves (Tracks follows within since)
      (Tracks follows within since) := by
  intro l hl
  refine hl.ends_watched hfollows (fun span hop => by cases hop) ((Action.ends_map ..).2 ?_)
  refine preserves_runNext (fun l' task queue hl' hpop => ?_) l hl.fromNow
  obtain ⟨p, rest, -, rfl, rfl⟩ := TaskQueue.popNext_eq_some.1 hpop
  exact hexec _ p.task _ (hl'.take rest (hall p.due))

omit hfollows in
/-- **An advance is noted with the time that it was to move to**, if the clock does not go past
this time or the reading is allowed all the same. -/
theorem Tracks.ends_watched_advance (h : Tracks follows within since l) (span : Nanos) (fuel : Nat)
    (hin : ∀ t, t ≤ l.queue.now + span → within t)
    (hset : ∀ now, within now → ∀ r : Reading τ σ, r.time ≤ now →
      follows r (.ended (.advance span) l.queue.now (l.queue.now + span))) :
    ((Operation.advance span).watched exec fuel).Ends l (fun _ => Tracks follows within since)
      fun _ => Tracks follows within since := by
  unfold Operation.watched
  simp only [Action.ends_bind, Action.ends_get, Action.ends_modify]
  refine (Action.ends_map ..).2 ?_
  unfold EventLoop.advance
  simp only [Action.ends_bind, Action.ends_get, Action.ends_ofExcept]
  cases htarget : Nanos.add l.queue.now span with
  | error f => exact h
  | ok target =>
    obtain ⟨rfl, -⟩ := Nanos.add_eq_ok.1 htarget
    refine (h.fromNow.settles_runDue hexec hin fuel).imp (fun _ l' hsettled => ?_)
      fun _ _ hl' => hl'.mono h.ahead
    obtain ⟨hl', -⟩ := hsettled
    refine (hl'.noted (s := .ended (.advance span) l.queue.now (l.queue.now + span))
      (Nat.le_add_right ..) (hin _ (Nat.le_refl _)) (hset _ hl'.inside) ?_).mono h.ahead
    rintro _ _ _ ⟨⟩
    refine ⟨Nat.le_add_right .., ?_⟩
    rintro _ ⟨⟩
    rfl

end Pumps

/-! ## Bodies and runs -/

/-- What every allowed operation preserves is preserved by a body that uses no other. -/
theorem Body.preserves_act {P : EventLoop τ (Watched τ σ) → Prop}
    {run : Operation τ σ → Act τ (Watched τ σ) Unit} {allowed : Operation τ σ → Prop}
    (hrun : ∀ op, allowed op → (run op).Preserves P P) {b : Body τ σ} (hb : b.Uses allowed) :
    (b.act Watched.world run).Preserves P P := by
  induction b with
  | done => exact .pure ()
  | fail f => exact .halt (fun _ hl => hl) _
  | look rest ih => exact .bind .read fun l => ih (seen _ l) (hb (seen _ l))
  | next op rest ih => exact .bind (hrun op hb.1) fun _ => ih hb.2

variable {body : τ → Body τ σ} {allowed : Operation τ σ → Prop}

/-- The readings stay tracked while a task runs, at every depth, if they do while each operation
is done that the bodies use. -/
theorem preserves_runWatched (hfollows : ∀ r s : Reading τ σ, r.time ≤ s.time → follows r s)
    (hop : ∀ exec : τ → Act τ (Watched τ σ) Unit,
      (∀ since task, (exec task).Preserves (Tracks follows within since)
        (Tracks follows within since)) →
      ∀ op, allowed op → ∀ fuel since, (op.watched exec fuel).Preserves
        (Tracks follows within since) (Tracks follows within since))
    (hbody : ∀ task, (body task).Uses allowed) (depth : Nat) (since : Nanos) (task : τ) :
    (runWatched body depth task).Preserves (Tracks follows within since)
      (Tracks follows within since) := by
  induction depth generalizing since task with
  | zero => exact .halt (fun _ hl => hl) _
  | succ depth ih =>
    refine .bind (.write fun l hl => ?_) fun _ =>
      Body.preserves_act (fun op hallowed => hop _ ih op hallowed depth since) (hbody task)
    refine Tracked.noted hl (s := .begun l.queue.now) hl.ahead hl.inside
      (fun r hr => hfollows r _ hr) ?_
    rintro _ _ _ ⟨⟩

end Operations

/-- The clock does not go back from one reading to the next; or the next is that at the end of an
advance, and is the time that the advance was to move to. -/
def Reading.GoesOn (r s : Reading τ σ) : Prop :=
  r.time ≤ s.time ∨ ∃ span began, s = .ended (.advance span) began (began + span)

section Runs

variable {body : τ → Body τ σ} {since : Nanos}

theorem Body.uses_true (b : Body τ σ) : b.Uses fun _ => True := by
  induction b with
  | done | fail _ => trivial
  | look rest ih => exact ih
  | next op rest ih => exact ⟨trivial, ih⟩

/-- Whatever is no advance keeps the readings tracked, if the tasks that it runs do. -/
theorem preserves_watched_ahead {follows : Reading τ σ → Reading τ σ → Prop}
    {exec : τ → Act τ (Watched τ σ) Unit}
    (hexec : ∀ since task, (exec task).Preserves (Tracks follows (fun _ => True) since)
      (Tracks follows (fun _ => True) since))
    (hfollows : ∀ r s : Reading τ σ, r.time ≤ s.time → follows r s) {op : Operation τ σ}
    (hop : ∀ span, op ≠ .advance span) (fuel : Nat) (since : Nanos) :
    (op.watched exec fuel).Preserves (Tracks follows (fun _ => True) since)
      (Tracks follows (fun _ => True) since) := by
  cases op with
  | post | clear | change | runUntilIdle =>
    exact preserves_watched_stays hexec hfollows (fun _ _ _ _ => trivial) (by trivial) fuel since
  | runNext => exact preserves_watched_runNext hexec hfollows (fun _ => trivial) fuel since
  | advance span => exact absurd rfl (hop span)

/-- **Every operation keeps the readings tracked**, whatever the tasks pump that it runs. -/
theorem preserves_watched (exec : τ → Act τ (Watched τ σ) Unit)
    (hexec : ∀ since task, (exec task).Preserves (Tracks Reading.GoesOn (fun _ => True) since)
      (Tracks Reading.GoesOn (fun _ => True) since))
    (op : Operation τ σ) (fuel : Nat) (since : Nanos) :
    (op.watched exec fuel).Preserves (Tracks Reading.GoesOn (fun _ => True) since)
      (Tracks Reading.GoesOn (fun _ => True) since) := by
  cases op with
  | advance span =>
    exact fun l hl => hl.ends_watched_advance hexec span fuel (fun _ _ => trivial)
      fun _ _ _ _ => .inr ⟨span, _, rfl⟩
  | post | clear | change | runUntilIdle | runNext =>
    exact preserves_watched_ahead hexec (fun _ _ => .inl) (by rintro _ ⟨⟩) fuel since

/-- Tasks that do not take the clock past the time at which they began keep the readings in order,
and within whatever holds of all earlier times too. -/
theorem preserves_runWatched_staying (hbody : ∀ task, (body task).Uses Operation.Stays)
    {within : Nanos → Prop} (hdown : ∀ a b, a ≤ b → within b → within a) (depth : Nat)
    (since : Nanos) (task : τ) :
    (runWatched body depth task).Preserves (Tracks (fun r s => r.time ≤ s.time) within since)
      (Tracks (fun r s => r.time ≤ s.time) within since) :=
  preserves_runWatched (fun _ _ hle => hle) (fun _ hexec _ hop fuel since =>
    preserves_watched_stays hexec (fun _ _ hle => hle) hdown hop fuel since) hbody depth since task

/-- **If the tasks stay, every operation keeps the readings in order**: none finds the clock ahead
of where it moves to. -/
theorem preserves_watched_staying (hbody : ∀ task, (body task).Uses Operation.Stays)
    (op : Operation τ σ) (fuel : Nat) (since : Nanos) :
    (op.watched (runWatched body fuel) fuel).Preserves
      (Tracks (fun r s => r.time ≤ s.time) (fun _ => True) since)
      (Tracks (fun r s => r.time ≤ s.time) (fun _ => True) since) := by
  cases op with
  | advance span =>
    intro l hl
    -- no body takes the clock past the time that the advance is to move to
    have hwithin : Tracks (fun r s : Reading τ σ => r.time ≤ s.time)
        (fun t => t ≤ l.queue.now + span) since l :=
      { hl with inside := Nat.le_add_right .. }
    exact (hwithin.ends_watched_advance
      (preserves_runWatched_staying hbody (fun _ _ => Nat.le_trans) fuel) span fuel (fun _ ht => ht)
      fun _ hnow _ hr => Nat.le_trans hr hnow).imp
      (fun _ _ hl' => hl'.widen) fun _ _ hl' => hl'.widen
  | post | clear | change | runUntilIdle | runNext =>
    exact preserves_watched_ahead
      (preserves_runWatched_staying hbody (fun (_ _ : Nanos) _ (_ : True) => trivial) fuel)
      (fun _ _ hle => hle) (by rintro _ ⟨⟩) fuel since

/-- What every operation preserves holds after all of them. -/
theorem watch_induction {P : EventLoop τ (Watched τ σ) → Prop}
    (hop : ∀ (op : Operation τ σ) fuel, (op.watched (runWatched body fuel) fuel).Preserves P P)
    (ops : List (Nat × Operation τ σ)) {l : EventLoop τ (Watched τ σ)} (hl : P l) :
    P (watch body l ops) := by
  induction ops generalizing l with
  | nil => exact hl
  | cons first ops ih => exact ih (hop first.2 first.1 l hl).state

end Runs

theorem tracks_watching {follows : Reading τ σ → Reading τ σ → Prop} (l : EventLoop τ σ) :
    Tracks follows (fun _ => True) l.queue.now l.watching where
  ahead := Nat.le_refl _
  inside := trivial
  last r hr := by
    cases hr
    exact Nat.le_refl _
  ordered := .singleton _
  ends _ _ _ hmem := by cases List.mem_singleton.1 hmem

/-- The clock that was watched is that of the loop without the watch. -/
theorem now_watch (body : τ → Body τ σ) (l : EventLoop τ σ) (ops : List (Nat × Operation τ σ)) :
    (watch body l.watching ops).queue.now = (operate body l ops).queue.now :=
  congrArg (fun l => l.queue.now) (seen_watch body l.watching ops)

/-- **Nothing sets the clock back but an advance.** Whatever the loop, whatever its tasks do, how
they pump it themselves, and whatever the owner does with it: from one reading to the next the
clock does not go back, unless the next is the one at the end of an advance, which is the time
that the advance was to move to when it began. No operation at any depth ends before it began, an
advance even at just this time. The owner never finds the clock gone back, nor behind the last
reading. And if no task advances the clock or runs the next task, then all readings are in order. -/
theorem clock_set_back_by_advance_only (body : τ → Body τ σ) (l : EventLoop τ σ)
    (ops : List (Nat × Operation τ σ)) :
    (readings body l ops).IsChain Reading.GoesOn ∧
      (∀ op began time, .ended op began time ∈ readings body l ops →
        began ≤ time ∧ ∀ span, op = .advance span → time = began + span) ∧
      (∀ k, (operate body l (ops.take k)).queue.now ≤ (operate body l ops).queue.now) ∧
      (∀ r ∈ (readings body l ops).getLast?, r.time ≤ (operate body l ops).queue.now) ∧
      ((∀ task, (body task).Uses Operation.Stays) →
        (readings body l ops).Pairwise fun r s => r.time ≤ s.time) := by
  have hstep (since : Nanos) (op : Operation τ σ) (fuel : Nat) :=
    preserves_watched (runWatched body fuel) (preserves_runWatched (fun _ _ => .inl)
      (fun exec hexec op _ => preserves_watched exec hexec op)
      (fun task => (body task).uses_true) fuel) op fuel since
  have hall := watch_induction (hstep l.queue.now) ops (tracks_watching l)
  refine ⟨List.isChain_reverse.2 hall.ordered,
    fun op began time hmem => hall.ends op began time (List.mem_reverse.1 hmem), fun k => ?_,
    fun r hr => ?_, fun hbody => ?_⟩
  · have hfirst := watch_induction (hstep l.queue.now) (ops.take k) (tracks_watching l)
    have hrest := watch_induction (hstep _) (ops.drop k) hfirst.fromNow
    have happend : watch body l.watching ops
        = watch body (watch body l.watching (ops.take k)) (ops.drop k) := by
      rw [watch, watch, watch, ← List.foldl_append, List.take_append_drop]
    rw [← now_watch, ← now_watch, happend]
    exact hrest.ahead
  · rw [← now_watch]
    rw [readings, List.getLast?_reverse] at hr
    exact hall.last r hr
  · have hordered := watch_induction
      (fun op fuel => preserves_watched_staying hbody op fuel l.queue.now) ops (tracks_watching l)
    exact List.isChain_iff_pairwise.1 (List.isChain_reverse.2 hordered.ordered)

/-- A task that posts the one below, down to zero, and has it run before it is done. -/
def nesting (n : Nat) : Body Nat Unit :=
  if n = 0 then .done else .next (.post (n - 1) 0) (.next .runUntilIdle .done)

/-- Tasks that pump, each within the one before, while the owner advances the clock. -/
theorem clock_set_back_by_advance_only_nesting :
    (readings nesting ⟨{}, ()⟩ [(9, .post 2 5), (9, .advance 10)]).map Reading.time
        = [0, 0, 5, 5, 5, 5, 5, 5, 5, 10] ∧
      (readings nesting ⟨{}, ()⟩ [(9, .post 2 5), (9, .advance 10)]).Pairwise
        fun r s => r.time ≤ s.time := by
  obtain ⟨-, -, -, -, hordered⟩ :=
    clock_set_back_by_advance_only nesting ⟨{}, ()⟩ [(9, .post 2 5), (9, .advance 10)]
  refine ⟨by decide +kernel, hordered fun n => ?_⟩
  unfold nesting
  split
  · trivial
  · exact ⟨trivial, trivial, trivial⟩

/-- A task that moves the clock ahead by a span. -/
def hasty (span : Nanos) : Body Nanos Unit := .next (.advance span) .done

/-- **An advance sets the clock back behind what its task has read.** The owner advances by ten; a
task that is due at five advances by twenty, to twenty-five, and then the clock is set to ten. -/
theorem clock_set_back_by_outer_advance :
    (readings hasty ⟨{}, ()⟩ [(9, .post 20 5), (9, .advance 10)]).map Reading.time
        = [0, 0, 5, 25, 10] ∧
      ¬ (readings hasty ⟨{}, ()⟩ [(9, .post 20 5), (9, .advance 10)]).Pairwise
        fun r s => r.time ≤ s.time := by
  have htimes : (readings hasty ⟨{}, ()⟩ [(9, .post 20 5), (9, .advance 10)]).map Reading.time
      = [0, 0, 5, 25, 10] := by decide +kernel
  refine ⟨htimes, fun hordered => ?_⟩
  have hsorted : ([0, 0, 5, 25, 10] : List Nanos).Pairwise fun a b => a ≤ b :=
    htimes ▸ List.pairwise_map.2 hordered
  exact absurd hsorted (by decide)

end EventLoop

end Compositor
