import Compositor.Proofs.Host.Cadence
import Compositor.Proofs.Host.Enduring
import Compositor.Proofs.Scrollbar

/-!
# The course of a fade

A fade posts its first frame at once, and each frame that leaves the scrollbar visible posts the
next one an interval later. So its frames are due at regular times from its start on, and the
last of them is the one at which the scrollbar has faded.

This module *watches* one fade from its start on. It is *on time* as long as nobody interferes:
nobody moves the clock but the runner's owner, drops what waits, turns tasks away, touches the
scrollbar or has it fade once more, and its gate is open. Whoever interferes from inside a script
leaves a note of it when it is done. So what is said here is said until there is such a note, or
the gate was shut (`Disturbed`); there is nothing to say of the fade then, and there never will be.

While a frame calls back it is *in hand*: it was shown, and the next one is not posted yet.
-/

namespace Compositor

variable {S : Type}

/-- The frame that is seen, if it is one of a fade of some name: how clearly the scrollbar shows,
and when. -/
def Event.frame? (name : String) : Event S → Option (Float32 × Nanos)
  | .fade scrollbar opacity now => if scrollbar = name then some (opacity, now) else none
  | _ => none

theorem Event.frame?_of_isFade {name : String} {e : Event S} (hfade : e.isFade = false) :
    e.frame? name = none := by
  cases e with
  | fade => cases hfade
  | _ => rfl

namespace Host

/-- The frames that were seen of fades of some name, the latest first. -/
def framesShown (name : String) (h : Host S) : List (Float32 × Nanos) :=
  h.state.events.filterMap (Event.frame? name)

/-- How many frames of fades of some name wait in a queue. -/
def framesIn (queue : TaskQueue (Task S)) (name : String) : Nat :=
  queue.pending.countP fun q => q.task.fades name

theorem framesIn_accept (queue : TaskQueue (Task S)) (task : Task S) (delay : Nanos)
    (name : String) :
    framesIn (queue.accept task delay) name
      = framesIn queue name + if task.fades name = true then 1 else 0 := by
  unfold framesIn TaskQueue.accept
  rw [(TaskQueue.insert_perm _ _).countP_eq, List.countP_cons]
  rfl

theorem framesIn_without {queue : TaskQueue (Task S)} {q : Pending (Task S)}
    {rest : List (Pending (Task S))} (hpending : queue.pending = q :: rest) (name : String) :
    framesIn queue name
      = framesIn (queue.without q rest) name + if q.task.fades name = true then 1 else 0 := by
  unfold framesIn
  rw [hpending, List.countP_cons]
  rfl

/-- **A fade that is watched**, and the state of affairs at the time it was started. -/
structure FadeWatch (S : Type) where
  name : String
  /-- The number of the scrollbar. -/
  number : Nat
  bar : Scrollbar
  /-- When the scrollbar was last scrolled. -/
  awakened : Nanos
  proxy : Nat
  interval : Nanos
  onFrame : S
  since : Nanos
  /-- The number of the frame at which the scrollbar has faded. -/
  last : Nat
  /-- The frames that were seen of fades of that name. -/
  shown : List (Float32 × Nanos)
  /-- Which part of a script interferes. -/
  isInput : S → Bool
  /-- How many such parts had been noted. -/
  noted : Nat
  bar_released : bar.pinching = false
  bar_awakened : bar.awakened = some awakened
  bar_formed : bar.delay + bar.duration ≤ longestSpan
  interval_pos : 0 < interval
  hasFaded_iff (k : Nat) : bar.HasFaded awakened (since + k * interval) ↔ last ≤ k

namespace FadeWatch

/-- The fade itself. -/
def fade (w : FadeWatch S) : Fade S :=
  { name := w.name, scrollbar := w.number, proxy := w.proxy, interval := w.interval,
    onFrame := w.onFrame }

/-- When a frame is due. -/
def timeOf (w : FadeWatch S) (k : Nat) : Nanos := w.since + k * w.interval

/-- The frames that were seen when some number of them had been shown, the latest first. -/
def shownBy (w : FadeWatch S) (k : Nat) : List (Float32 × Nanos) :=
  (w.bar.frames w.since w.interval k).reverse ++ w.shown

/-- The frame as it waits. -/
def task (w : FadeWatch S) : Task S := .proxied w.proxy (.frame w.fade)

variable {w : FadeWatch S} {k : Nat}

theorem timeOf_succ (w : FadeWatch S) (k : Nat) : w.timeOf (k + 1) = w.timeOf k + w.interval := by
  unfold timeOf
  rw [Nat.succ_mul, Nat.add_assoc]

theorem timeOf_le {j : Nat} (hle : j ≤ k) : w.timeOf j ≤ w.timeOf k :=
  Nat.add_le_add_left (Nat.mul_le_mul_right _ hle) _

theorem timeOf_inj {j : Nat} (heq : w.timeOf j = w.timeOf k) : j = k :=
  Nat.eq_of_mul_eq_mul_right w.interval_pos (Nat.add_left_cancel heq)

theorem shownBy_succ (w : FadeWatch S) (k : Nat) :
    w.shownBy (k + 1) = (w.bar.opacityOf (w.timeOf k), w.timeOf k) :: w.shownBy k := by
  unfold shownBy
  rw [Scrollbar.frames_succ, List.reverse_append]
  rfl

theorem fades_task (w : FadeWatch S) : w.task.fades w.name = true := beq_self_eq_true w.name

/-- **A frame shows the scrollbar** exactly if it is not the last. -/
theorem zero_lt_iff (w : FadeWatch S) (k : Nat) :
    Transform.zero < w.bar.opacityOf (w.timeOf k) ↔ k < w.last := by
  rw [Scrollbar.zero_lt_opacityOf_iff w.bar_released w.bar_awakened w.bar_formed, timeOf,
    w.hasFaded_iff, Nat.not_le]

/-- The gate of the fade was shut. -/
def Shut (w : FadeWatch S) (proxies : Roster Proxy) : Prop :=
  ∃ p, proxies.get? w.proxy = some p ∧ p.shutDown = true

/-- **The fade is on time** after a number of frames: they were seen at the times they were due,
and unless it was the last of them the next one waits, or is in hand. -/
structure OnTime (w : FadeWatch S) (inHand : Bool) (queue : TaskQueue (Task S))
    (held : Table String (Task S)) (events : List (Event S)) (proxies : Roster Proxy)
    (scrollbars : Roster Scrollbar) (k : Nat) : Prop where
  inTime : queue.InTime
  accepting : queue.accepting = true
  held {name : String} {task : Task S} (htask : held.find? name = some task) :
    task.fades w.name = false
  gate : ∃ p, proxies.get? w.proxy = some p
  bar : ∃ opacity, scrollbars.get? w.number = some { w.bar with opacity }
  named {name : String} (hname : scrollbars.number? name = some w.number) : name = w.name
  shown : events.filterMap (Event.frame? w.name) = w.shownBy k
  bounded : k ≤ w.last + 1
  begun : w.timeOf k ≤ queue.now + w.interval
  waiting : framesIn queue w.name = if inHand = false ∧ k ≤ w.last then 1 else 0
  due {q : Pending (Task S)} (hq : q ∈ queue.pending) (hfades : q.task.fades w.name = true) :
    q.task = w.task ∧ q.due = w.timeOf k
  inHand (hinHand : inHand = true) : queue.now + w.interval = w.timeOf k

/-- Something has been noted that interferes, or the gate was shut. -/
def Disturbed (w : FadeWatch S) (events : List (Event S)) (proxies : Roster Proxy) : Prop :=
  w.noted < events.countP (Event.notes w.isInput) ∨ w.Shut proxies

/-- **The fade takes its course**, unless it was disturbed; the clock reads a time, and a frame may
be in hand. -/
def Fading (w : FadeWatch S) (now : Nanos) (inHand : Bool) (h : Host S) : Prop :=
  w.noted ≤ h.noted w.isInput ∧
    (w.Disturbed h.state.events h.state.proxies ∨ h.queue.now = now ∧
      ∃ k, w.OnTime inHand h.queue h.state.heldTasks h.state.events h.state.proxies
        h.state.scrollbars k)

/-- **What was to be seen by now was seen**: of the frames up to the last those that were due, and
the next one waits if that was not all. -/
def Seen (w : FadeWatch S) (queue : TaskQueue (Task S)) (events : List (Event S)) : Prop :=
  events.filterMap (Event.frame? w.name)
      = ((w.bar.frames w.since w.interval (w.last + 1)).filter fun frame =>
          frame.2 ≤ queue.now).reverse ++ w.shown ∧
    framesIn queue w.name = if w.timeOf w.last ≤ queue.now then 0 else 1

variable {now : Nanos} {inHand : Bool} {queue : TaskQueue (Task S)}
  {held : Table String (Task S)} {events : List (Event S)} {proxies proxies' : Roster Proxy}
  {scrollbars : Roster Scrollbar} {h : Host S}

/-! ## What was noted stays noted -/

theorem Shut.regate (hshut : w.Shut proxies) (hproxies : proxies.Regates proxies') :
    w.Shut proxies' := by
  obtain ⟨p, hp, hdown⟩ := hshut
  obtain ⟨p', hp', hstays⟩ := hproxies hp
  exact ⟨p', hp', hstays hdown⟩

namespace Disturbed

theorem emit (hdisturbed : w.Disturbed events proxies) (e : Event S) :
    w.Disturbed (e :: events) proxies :=
  hdisturbed.imp_left fun hlt =>
    Nat.lt_of_lt_of_le hlt (List.Sublist.countP_le (List.sublist_cons_self ..))

theorem regate (hdisturbed : w.Disturbed events proxies) (hproxies : proxies.Regates proxies') :
    w.Disturbed events proxies' :=
  hdisturbed.imp_right fun hshut => hshut.regate hproxies

end Disturbed

/-! ## What happens to the fade -/

namespace OnTime

theorem emit (hT : w.OnTime inHand queue held events proxies scrollbars k) {e : Event S}
    (hother : e.frame? w.name = none) :
    w.OnTime inHand queue held (e :: events) proxies scrollbars k :=
  { hT with shown := by rw [List.filterMap_cons_none hother]; exact hT.shown }

/-- A task is posted that is no frame of such a fade. -/
theorem accept (hT : w.OnTime inHand queue held events proxies scrollbars k) {task : Task S}
    (hno : task.fades w.name = false) (delay : Nanos) :
    w.OnTime inHand (queue.accept task delay) held events proxies scrollbars k :=
  { hT with
    inTime := hT.inTime.accept task delay
    waiting := by
      rw [framesIn_accept, hno]
      exact hT.waiting
    due := fun {q} hq hfades => by
      rcases TaskQueue.mem_pending_accept.1 hq with rfl | hq
      · cases hno.symm.trans hfades
      · exact hT.due hq hfades }

theorem keep (hT : w.OnTime inHand queue held events proxies scrollbars k) (name : String)
    {task : Task S} (hno : task.fades w.name = false) :
    w.OnTime inHand queue (held.insert name task) events proxies scrollbars k :=
  { hT with
    held := fun {other _} hother => by
      by_cases heq : other = name
      · rw [heq, Table.find?_insert_self] at hother
        cases hother
        exact hno
      · rw [Table.find?_insert_of_ne _ _ heq] at hother
        exact hT.held hother }

theorem release (hT : w.OnTime inHand queue held events proxies scrollbars k) (name : String) :
    w.OnTime inHand queue (held.erase name) events proxies scrollbars k :=
  { hT with held := fun htask => hT.held (Table.find?_of_erase htask) }

theorem regate (hT : w.OnTime inHand queue held events proxies scrollbars k)
    (hproxies : proxies.Regates proxies') :
    w.OnTime inHand queue held events proxies' scrollbars k :=
  { hT with
    gate := by
      obtain ⟨p, hp⟩ := hT.gate
      obtain ⟨p', hp', -⟩ := hproxies hp
      exact ⟨p', hp'⟩ }

/-- A scrollbar is made, maybe under the same name. -/
theorem enroll (hT : w.OnTime inHand queue held events proxies scrollbars k) (name : String)
    (bar : Scrollbar) :
    w.OnTime inHand queue held events proxies (scrollbars.enroll name bar).2 k := by
  obtain ⟨opacity, hbar⟩ := hT.bar
  refine { hT with
    bar := ⟨opacity, (Roster.gains_enroll ..).get?_of_some hbar⟩
    named := fun {other} hother => ?_ }
  rcases Roster.number?_of_enroll hother with hother | hnone
  · exact hT.named hother
  · cases hnone.symm.trans hbar

/-- Some scrollbar is drawn anew. -/
theorem paint (hT : w.OnTime inHand queue held events proxies scrollbars k) {number : Nat}
    {bar : Scrollbar} (hbar : scrollbars.get? number = some bar) (opacity : Float32) :
    w.OnTime inHand queue held events proxies
      (scrollbars.update number fun _ => { bar with opacity }) k := by
  obtain ⟨shows, hshows⟩ := hT.bar
  refine { hT with bar := ?_, named := hT.named }
  by_cases heq : w.number = number
  · subst heq
    obtain rfl := Option.some.inj (hbar.symm.trans hshows)
    exact ⟨opacity, Roster.get?_update_of_some hbar _⟩
  · exact ⟨shows, (Roster.get?_update_of_ne _ _ heq).trans hshows⟩

/-- Another scrollbar changes. -/
theorem changeOther (hT : w.OnTime inHand queue held events proxies scrollbars k) {number : Nat}
    (hne : number ≠ w.number) (f : Scrollbar → Scrollbar) :
    w.OnTime inHand queue held events proxies (scrollbars.update number f) k := by
  obtain ⟨shows, hshows⟩ := hT.bar
  exact { hT with
    bar := ⟨shows, (Roster.get?_update_of_ne _ _ hne.symm).trans hshows⟩
    named := hT.named }

variable {q : Pending (Task S)} {rest : List (Pending (Task S))}

/-- A task is taken out that is no frame of such a fade. -/
theorem pop (hT : w.OnTime inHand queue held events proxies scrollbars k)
    (hpending : queue.pending = q :: rest) (hno : q.task.fades w.name = false)
    (hdue : inHand = true → q.due ≤ queue.now) :
    w.OnTime inHand (queue.without q rest) held events proxies scrollbars k :=
  { hT with
    inTime := hT.inTime.without hpending
    begun := Nat.le_trans hT.begun (Nat.add_le_add_right (Nat.le_max_left ..) _)
    waiting := by
      have hwaiting := hT.waiting
      rw [framesIn_without hpending, hno] at hwaiting
      exact hwaiting
    due := fun hr => hT.due (hpending ▸ List.mem_cons_of_mem _ hr)
    inHand := fun hinHand =>
      (congrArg (· + w.interval) (Nat.max_eq_left (hdue hinHand))).trans (hT.inHand hinHand) }

/-- Moving the clock ahead to a time by which nothing is due leaves the fade on time, and its next
frame is due later. -/
theorem moved (hT : w.OnTime false queue held events proxies scrollbars k) {target : Nanos}
    (hle : queue.now ≤ target) (hnone : queue.popDue target = none) :
    w.OnTime false { queue with now := target } held events proxies scrollbars k ∧
      (k ≤ w.last → target < w.timeOf k) := by
  refine ⟨{ hT with
    inTime := hT.inTime.moved hnone
    begun := Nat.le_trans hT.begun (Nat.add_le_add_right hle _)
    inHand := Bool.false_ne_true.elim }, fun hlast => ?_⟩
  have hwaiting := hT.waiting
  rw [if_pos ⟨rfl, hlast⟩] at hwaiting
  obtain ⟨q, hq, hfades⟩ := List.countP_pos_iff.1 (Nat.lt_of_lt_of_eq Nat.one_pos hwaiting.symm)
  exact (hT.due hq hfades).2 ▸ hT.inTime.lt_due_of_popDue_eq_none hnone hq

/-! ## From frame to frame -/

/-- **The frame is taken out**, at the time it is due, and it is not the one after the last. -/
theorem take (hT : w.OnTime inHand queue held events proxies scrollbars k)
    (hpending : queue.pending = q :: rest) (hfades : q.task.fades w.name = true) :
    inHand = false ∧ k ≤ w.last ∧ q.task = w.task ∧
      (queue.without q rest).now = w.timeOf k ∧ framesIn (queue.without q rest) w.name = 0 := by
  have hmem : q ∈ queue.pending := hpending ▸ List.mem_cons_self ..
  obtain ⟨htask, hdue⟩ := hT.due hmem hfades
  have hwaiting := hT.waiting
  rw [framesIn_without hpending, if_pos hfades] at hwaiting
  split at hwaiting
  · next hnext =>
    exact ⟨hnext.1, hnext.2, htask, (hT.inTime.now_without hpending).trans hdue,
      Nat.succ.inj hwaiting⟩
  · cases hwaiting

/-- **The frame is shown**: it is in hand from now on. -/
theorem reveal (hT : w.OnTime inHand queue held events proxies scrollbars k)
    (hpending : queue.pending = q :: rest) (hfades : q.task.fades w.name = true) :
    w.OnTime true (queue.without q rest) held
      (.fade w.name (w.bar.opacityOf (queue.without q rest).now) (queue.without q rest).now
        :: events) proxies
      (scrollbars.update w.number fun _ =>
        { w.bar with opacity := w.bar.opacityOf (queue.without q rest).now }) (k + 1) := by
  obtain ⟨-, hlast, -, hnow, hnone⟩ := hT.take hpending hfades
  obtain ⟨shows, hshows⟩ := hT.bar
  have hnext : (queue.without q rest).now + w.interval = w.timeOf (k + 1) := by
    rw [hnow, timeOf_succ]
  exact {
    inTime := hT.inTime.without hpending
    accepting := hT.accepting
    held := hT.held
    gate := hT.gate
    bar := ⟨_, Roster.get?_update_of_some hshows _⟩
    named := hT.named
    shown := by
      have hframe : (Event.fade w.name (w.bar.opacityOf (w.timeOf k)) (w.timeOf k) : Event S).frame?
          w.name = some (w.bar.opacityOf (w.timeOf k), w.timeOf k) := if_pos rfl
      rw [hnow, List.filterMap_cons_some hframe, hT.shown, shownBy_succ]
    bounded := Nat.succ_le_succ hlast
    begun := Nat.le_of_eq hnext.symm
    waiting := hnone
    due := fun {r} hr hfades' => absurd hfades' (List.countP_eq_zero.1 hnone r hr)
    inHand := fun _ => hnext }

/-- In hand there is the frame that the clock shows. -/
theorem eq_of_inHand {k' : Nat} (hT : w.OnTime true queue held events proxies scrollbars k')
    (hnow : queue.now = w.timeOf k) : k' = k + 1 := by
  refine timeOf_inj ((hT.inHand rfl).symm.trans ?_)
  rw [hnow, timeOf_succ]

/-- **The next frame is posted**, an interval later. -/
theorem repost (hT : w.OnTime true queue held events proxies scrollbars k) (hmore : k ≤ w.last) :
    w.OnTime false (queue.accept w.task w.interval) held events proxies scrollbars k := by
  have hnone : framesIn queue w.name = 0 := hT.waiting
  exact { hT with
    inTime := hT.inTime.accept ..
    waiting := by
      rw [framesIn_accept, if_pos w.fades_task, hnone, if_pos ⟨rfl, hmore⟩]
    due := fun {q} hq hfades => by
      rcases TaskQueue.mem_pending_accept.1 hq with rfl | hq
      · exact ⟨rfl, hT.inHand rfl⟩
      · exact absurd hfades (List.countP_eq_zero.1 hnone q hq)
    inHand := Bool.false_ne_true.elim }

/-- The last frame was shown, and no other one is posted. -/
theorem finish (hT : w.OnTime true queue held events proxies scrollbars k) (hlast : w.last < k) :
    w.OnTime false queue held events proxies scrollbars k :=
  { hT with
    waiting := by
      rw [if_neg fun hnext => Nat.not_le.2 hlast hnext.2]
      exact hT.waiting
    inHand := Bool.false_ne_true.elim }

/-- **When the next frame is due later**, all frames were seen that were due, up to the last. -/
theorem seen (hT : w.OnTime false queue held events proxies scrollbars k)
    (hlater : k ≤ w.last → queue.now < w.timeOf k) : w.Seen queue events := by
  -- the frames that were due are the first `k`
  have hdue (j : Nat) (hj : j < w.last + 1) : w.timeOf j ≤ queue.now ↔ j < k := by
    refine ⟨fun hle => Nat.lt_of_not_le fun hkj => ?_, fun hlt => ?_⟩
    · have hnow := hlater (Nat.le_trans hkj (Nat.le_of_lt_succ hj))
      exact Nat.not_le.2 hnow (Nat.le_trans (timeOf_le hkj) hle)
    · have hnext : w.timeOf j + w.interval ≤ queue.now + w.interval :=
        Nat.le_trans (timeOf_succ w j ▸ timeOf_le hlt) hT.begun
      exact Nat.le_of_add_le_add_right hnext
  have hfirst : ((List.range (w.last + 1)).filter fun j => w.timeOf j ≤ queue.now)
      = List.range k := by
    rw [List.filter_congr (q := (· < k)) fun j hj => by
      rw [decide_eq_decide]
      exact hdue j (List.mem_range.1 hj)]
    obtain ⟨more, hmore⟩ := Nat.exists_eq_add_of_le hT.bounded
    rw [hmore, List.range_add, List.filter_append, List.filter_eq_self.2 fun j hj =>
      decide_eq_true (List.mem_range.1 hj), List.filter_eq_nil_iff.2 fun j hj => ?_,
      List.append_nil]
    obtain ⟨i, -, rfl⟩ := List.mem_map.1 hj
    simp
  refine ⟨?_, ?_⟩
  · rw [Scrollbar.frames, List.filter_map, Function.comp_def]
    exact hT.shown.trans (congrArg (fun ks => (List.map _ ks).reverse ++ w.shown) hfirst.symm)
  rw [hT.waiting]
  have hover := hdue w.last (Nat.lt_succ_self _)
  by_cases hlast : k ≤ w.last
  · rw [if_pos ⟨rfl, hlast⟩, if_neg fun hle => Nat.not_lt.2 hlast (hover.1 hle)]
  · rw [if_neg fun hnext => hlast hnext.2, if_pos (hover.2 (Nat.lt_of_not_le hlast))]

end OnTime

end FadeWatch

end Host

end Compositor
