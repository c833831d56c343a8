import Compositor.Proofs.Scenario.Lookup
import Compositor.Proofs.Table
import Compositor.Proofs.Task.Slots

/-!
# The slots of a host

What is asked of a slot of a host is that a task be guarded by it, and that it be emptied. All the
slots and all the handles that have names share one ledger of handles, and tasks look their
handles up in it when their turn comes. So what was asked of one slot (`Asked`) tells what any
task does that it guards, run now (`Asked.on_runTask`), if only nobody else has got hold of
the handles of this slot (`Guarding`).
-/

namespace Compositor.Host

open Compositor.Action SlotCall

variable {S : Type} {name : String} {calls : List SlotCall} {h h' : Host S}

/-- Guarding a task by a slot fills the slot. -/
theorem guardTask_slot_on (name : String) (task : Task S) (h : Host S) :
    (guardTask (.slot name) task).on h =
      (.ok (.guarded (((h.state.slots.find? name).getD {}).reset h.state.handles).1 task),
        { h with state := { h.state with
          handles := (((h.state.slots.find? name).getD {}).reset h.state.handles).2.2
          slots := h.state.slots.insert name
            (((h.state.slots.find? name).getD {}).reset h.state.handles).2.1 } }) :=
  rfl

/-- Emptying a slot that is there. -/
theorem cancelSlot_on {s : Slot} (hs : h.state.slots.find? name = some s) :
    (cancelSlot name).on h = (.ok .done, { h with state := { h.state with
      handles := (s.cancel h.state.handles).2
      slots := h.state.slots.insert name (s.cancel h.state.handles).1 } }) := by
  have hread : (residents : Act S (Residents S)).on h = (.ok h.state, h) := rfl
  unfold cancelSlot
  rw [on_bind, hread]
  dsimp only
  rw [hs]
  rfl

/-- **What was asked of the slot of a name** since it was new, in order, whatever went on beside
it meanwhile. -/
inductive Asked (name : String) : List SlotCall → Host S → Prop where
  | new {h : Host S} (hslot : h.state.slots.find? name = some {})
    (hissued : ∀ handle, h.state.handles.isCanceled handle = true →
      handle < h.state.handles.issued) : Asked name [] h
  | reset {calls : List SlotCall} {h h' : Host S} {task : Task S} {handle : Handle}
    (hasked : Asked name calls h)
    (hreset : (guardTask (.slot name) task).on h = (.ok (.guarded handle task), h')) :
    Asked name (calls ++ [.reset handle]) h'
  | cancel {calls : List SlotCall} {h h' : Host S} (hasked : Asked name calls h)
    (hcancel : (cancelSlot name).on h = (.ok .done, h')) : Asked name (calls ++ [.cancel]) h'
  | beside {calls : List SlotCall} {h h' : Host S} (hasked : Asked name calls h)
    (hslot : h'.state.slots.find? name = h.state.slots.find? name)
    (hbeside : h.state.handles.Beside (returned calls) h'.state.handles) : Asked name calls h'

/-- Whatever was asked of it, the slot is there, and it and the ledger show what was asked. -/
theorem Asked.exists_shows (hasked : Asked name calls h) :
    ∃ s, h.state.slots.find? name = some s ∧ Slot.Shows calls s h.state.handles := by
  induction hasked with
  | new hslot hissued => exact ⟨{}, hslot, .new hissued⟩
  | @reset calls h h' task handle _ hreset ih =>
    obtain ⟨s, hs, hshows⟩ := ih
    rw [guardTask_slot_on, hs] at hreset
    cases hreset
    exact ⟨_, Table.find?_insert_self .., hshows.reset⟩
  | cancel _ hcancel ih =>
    obtain ⟨s, hs, hshows⟩ := ih
    rw [cancelSlot_on hs] at hcancel
    cases hcancel
    exact ⟨_, Table.find?_insert_self .., hshows.cancel⟩
  | beside _ hslot hbeside ih =>
    obtain ⟨s, hs, hshows⟩ := ih
    exact ⟨s, hslot.trans hs, hshows.beside hbeside⟩

/-- A task that is guarded does nothing once its handle is canceled. -/
theorem runTask_guarded_on (run : S → Act S Unit) (handle : Handle) (task : Task S) (h : Host S) :
    (runTask run (.guarded handle task)).on h =
      if h.state.handles.isCanceled handle then (.ok (), h) else (runTask run task).on h := by
  have hread : (residents : Act S (Residents S)).on h = (.ok h.state, h) := rfl
  rw [runTask, on_bind, hread]
  dsimp only
  cases h.state.handles.isCanceled handle <;> rfl

/-- **A task that a slot gave back** runs if it is that of the latest call, and else it does
nothing. -/
theorem Asked.on_runTask (hasked : Asked name calls h) (run : S → Act S Unit) (task : Task S)
    {handle : Handle} (hmem : handle ∈ returned calls) :
    (runTask run (.guarded handle task)).on h =
      if latest calls = some handle then (runTask run task).on h else (.ok (), h) := by
  obtain ⟨s, -, hshows⟩ := hasked.exists_shows
  rw [runTask_guarded_on]
  by_cases hlatest : latest calls = some handle
  · rw [if_pos hlatest, (hshows.live hmem).2 hlatest]
    rfl
  · have hcanceled : h.state.handles.isCanceled handle = true := by
      rw [← Bool.not_eq_false, hshows.live hmem]
      exact hlatest
    rw [if_neg hlatest, hcanceled]
    rfl

/-- **At most one task of a slot is live**: all tasks that it gave back have handles of their own,
of which only that of the latest call, if this was a reset, is not canceled; so a task that is run
now does what it guards if it is that task, and else it does nothing. The slot is pending if its
latest call was a reset. -/
structure OneLive (name : String) (calls : List SlotCall) (h : Host S) : Prop where
  distinct : (returned calls).Nodup
  live : (returned calls).filter (fun handle => !h.state.handles.isCanceled handle)
    = (latest calls).toList
  runs (run : S → Act S Unit) (task : Task S) {handle : Handle} (hmem : handle ∈ returned calls) :
    (runTask run (.guarded handle task)).on h =
      if latest calls = some handle then (runTask run task).on h else (.ok (), h)
  pending : ∃ s, h.state.slots.find? name = some s ∧
    (s.isPending h.state.handles = true ↔ ∃ handle, calls.getLast? = some (.reset handle))

/-- **Whatever was asked of a slot**, at most one of its tasks is live. -/
theorem Asked.oneLive (hasked : Asked name calls h) : OneLive name calls h := by
  obtain ⟨s, hs, hshows⟩ := hasked.exists_shows
  refine ⟨hshows.increasing.imp Nat.ne_of_lt, hshows.filter_returned,
    fun run task _ hmem => hasked.on_runTask run task hmem, s, hs, ?_⟩
  rw [hshows.isPending_eq, Option.isSome_iff_exists]
  exact exists_congr fun _ => latest_eq_some

/-! ## Nobody else has the handles of a slot -/

/-- A task that runs a good script, maybe behind guards and gates. -/
inductive IsScripted (Good : S → Prop) : Task S → Prop where
  | scripted {label : String} {script : S} (hgood : Good script) :
    IsScripted Good (.scripted label script)
  | guarded (handle : Handle) {task : Task S} (htask : IsScripted Good task) :
    IsScripted Good (.guarded handle task)
  | proxied (proxy : Nat) {task : Task S} (htask : IsScripted Good task) :
    IsScripted Good (.proxied proxy task)

/-- **A slot of a host that has its handles for itself.** Neither the handles that have names nor
those that other slots hold are handles of the slot, and all tasks of the host run good
scripts. -/
structure Guarding (Good : S → Prop) (name : String) (calls : List SlotCall) (h : Host S) :
    Prop where
  asked : Asked name calls h
  named {other : String} {handle : Handle}
    (hhandle : h.state.cancelHandles.find? other = some handle) :
    h.state.handles.IsForeign (returned calls) handle
  slots {other : String} {s : Slot} {handle : Handle} (hne : other ≠ name)
    (hs : h.state.slots.find? other = some s) (hheld : s.current = some handle) :
    h.state.handles.IsForeign (returned calls) handle
  queued {q : Pending (Task S)} (hq : q ∈ h.queue.pending) : IsScripted Good q.task
  kept {other : String} {task : Task S} (htask : h.state.heldTasks.find? other = some task) :
    IsScripted Good task

/-- **What was asked of a slot goes on** from what was asked before. -/
def Continuing (Good : S → Prop) (name : String) (before : List SlotCall) (h : Host S) : Prop :=
  ∃ calls, Guarding Good name (before ++ calls) h

section Continuing

variable {Good : S → Prop} {before : List SlotCall}

namespace Guarding

/-- The next handle was not given to the slot before. -/
theorem issued_notMem (hG : Guarding Good name calls h) :
    h.state.handles.issued ∉ returned calls := by
  obtain ⟨s, -, hshows⟩ := hG.asked.exists_shows
  exact fun hmem => Nat.lt_irrefl _ (hshows.returned hmem)

/-- Something else changes on the host, and tasks come and go. -/
theorem aside (hG : Guarding Good name calls h) (hslots : h'.state.slots = h.state.slots)
    (hhandles : h'.state.handles = h.state.handles)
    (hnames : h'.state.cancelHandles = h.state.cancelHandles)
    (hqueued : ∀ q ∈ h'.queue.pending, IsScripted Good q.task)
    (hkept : ∀ other task, h'.state.heldTasks.find? other = some task → IsScripted Good task) :
    Guarding Good name calls h' where
  asked := hG.asked.beside (by rw [hslots]) (hhandles ▸ .refl ..)
  named hhandle := by
    rw [hhandles]
    exact hG.named (hnames ▸ hhandle)
  slots hne hs hheld := by
    rw [hhandles]
    exact hG.slots hne (hslots ▸ hs) hheld
  queued hq := hqueued _ hq
  kept htask := hkept _ _ htask

/-- A handle gets a name. -/
theorem issue (hG : Guarding Good name calls h) (other : String) :
    Guarding Good name calls { h with state := { h.state with
      handles := h.state.handles.issue.2
      cancelHandles := h.state.cancelHandles.insert other h.state.handles.issue.1 } } where
  asked := hG.asked.beside rfl (Handles.beside_issue ..)
  named {other' handle} hhandle := by
    by_cases heq : other' = other
    · subst heq
      rw [Table.find?_insert_self] at hhandle
      obtain rfl := Option.some.inj hhandle
      exact ⟨hG.issued_notMem, Nat.lt_succ_self _⟩
    · rw [Table.find?_insert_of_ne _ _ heq] at hhandle
      exact (hG.named hhandle).mono (Nat.le_succ _)
  slots hne hs hheld := (hG.slots hne hs hheld).mono (Nat.le_succ _)
  queued := hG.queued
  kept := hG.kept

/-- A handle is canceled that has a name. -/
theorem cancelNamed (hG : Guarding Good name calls h) {other : String} {handle : Handle}
    (hhandle : h.state.cancelHandles.find? other = some handle) :
    Guarding Good name calls { h with state := { h.state with
      handles := h.state.handles.cancel handle } } where
  asked := hG.asked.beside rfl (Handles.beside_cancel (hG.named hhandle))
  named hhandle := (hG.named hhandle).mono (Nat.le_refl _)
  slots hne hs hheld := (hG.slots hne hs hheld).mono (Nat.le_refl _)
  queued := hG.queued
  kept := hG.kept

/-- The slot is filled. -/
theorem reset (hG : Guarding Good name calls h) (task : Task S) :
    ∃ handle h', (guardTask (.slot name) task).on h = (.ok (.guarded handle task), h') ∧
      Guarding Good name (calls ++ [.reset handle]) h' := by
  have hissued := Slot.le_issued_reset ((h.state.slots.find? name).getD {}) h.state.handles
  refine ⟨_, _, guardTask_slot_on name task h, .reset hG.asked (guardTask_slot_on name task h),
    fun hhandle => ?_, fun hne hs hheld => ?_, hG.queued, hG.kept⟩
  · rw [returned_concat_reset]
    exact (hG.named hhandle).concat hissued
  · rw [Table.find?_insert_of_ne _ _ hne] at hs
    rw [returned_concat_reset]
    exact (hG.slots hne hs hheld).concat hissued

/-- The slot is emptied. -/
theorem cancel (hG : Guarding Good name calls h) :
    ∃ h', (cancelSlot name).on h = (.ok .done, h') ∧
      Guarding Good name (calls ++ [.cancel]) h' := by
  obtain ⟨s, hs, -⟩ := hG.asked.exists_shows
  have hissued : h.state.handles.issued ≤ (s.cancel h.state.handles).2.issued :=
    Nat.le_of_eq (s.issued_cancel h.state.handles).symm
  refine ⟨_, cancelSlot_on hs, .cancel hG.asked (cancelSlot_on hs),
    fun hhandle => ?_, fun hne hs' hheld => ?_, hG.queued, hG.kept⟩
  · rw [returned_concat_cancel]
    exact (hG.named hhandle).mono hissued
  · rw [Table.find?_insert_of_ne _ _ hne] at hs'
    rw [returned_concat_cancel]
    exact (hG.slots hne hs' hheld).mono hissued

/-- Another slot changes, and holds nothing or the handle of somebody else. -/
theorem changeSlot (hG : Guarding Good name calls h) {other : String} (hne : other ≠ name)
    {s : Slot} {handles : Handles} (hbeside : h.state.handles.Beside (returned calls) handles)
    (hheld : ∀ handle, s.current = some handle → handles.IsForeign (returned calls) handle) :
    Guarding Good name calls { h with state := { h.state with
      handles, slots := h.state.slots.insert other s } } where
  asked := hG.asked.beside (Table.find?_insert_of_ne _ _ hne.symm) hbeside
  named hhandle := (hG.named hhandle).mono hbeside.issued
  slots {other' s' handle} hne' hs' hheld' := by
    by_cases heq : other' = other
    · subst heq
      rw [Table.find?_insert_self] at hs'
      obtain rfl := Option.some.inj hs'
      exact hheld handle hheld'
    · rw [Table.find?_insert_of_ne _ _ heq] at hs'
      exact (hG.slots hne' hs' hheld').mono hbeside.issued
  queued := hG.queued
  kept := hG.kept

/-- What another slot holds is not the slot's. -/
theorem foreign_getD (hG : Guarding Good name calls h) {other : String} (hne : other ≠ name)
    (handle : Handle) (hheld : ((h.state.slots.find? other).getD {}).current = some handle) :
    h.state.handles.IsForeign (returned calls) handle := by
  cases hs : h.state.slots.find? other with
  | none =>
    rw [hs] at hheld
    cases hheld
  | some s =>
    rw [hs] at hheld
    exact hG.slots hne hs hheld

end Guarding

theorem Continuing.aside (hC : Continuing Good name before h)
    (hqueued : ∀ q ∈ h'.queue.pending, q ∈ h.queue.pending ∨ IsScripted Good q.task)
    (hkept : ∀ other task, h'.state.heldTasks.find? other = some task →
      h.state.heldTasks.find? other = some task ∨ IsScripted Good task)
    (hslots : h'.state.slots = h.state.slots := by rfl)
    (hhandles : h'.state.handles = h.state.handles := by rfl)
    (hnames : h'.state.cancelHandles = h.state.cancelHandles := by rfl) :
    Continuing Good name before h' := by
  obtain ⟨calls, hG⟩ := hC
  exact ⟨calls, hG.aside hslots hhandles hnames (fun q hq => (hqueued q hq).elim hG.queued id)
    fun other task htask => (hkept other task htask).elim hG.kept id⟩

/-- Something else changes on the host, and no tasks come. -/
theorem Continuing.change (hC : Continuing Good name before h)
    (hqueue : ∀ q ∈ h'.queue.pending, q ∈ h.queue.pending := by exact fun _ => id)
    (hkept : h'.state.heldTasks = h.state.heldTasks := by rfl)
    (hslots : h'.state.slots = h.state.slots := by rfl)
    (hhandles : h'.state.handles = h.state.handles := by rfl)
    (hnames : h'.state.cancelHandles = h.state.cancelHandles := by rfl) :
    Continuing Good name before h' :=
  hC.aside (fun q hq => .inl (hqueue q hq)) (fun _ _ htask => .inl (hkept ▸ htask))
    hslots hhandles hnames

/-! ## What guards and slots do -/

variable {E : Halt → Host S → Prop}

/-- **Guarding a task**, by a handle of its own, by the slot or by another one. -/
theorem ends_guardTask_continuing (guard : Guard) {task : Task S} (htask : IsScripted Good task)
    (hC : Continuing Good name before h) :
    (guardTask guard task).Ends h
      (fun t h' => IsScripted Good t ∧ Continuing Good name before h') E := by
  obtain ⟨calls, hG⟩ := hC
  cases guard with
  | none => exact ⟨htask, calls, hG⟩
  | handle other => exact ⟨.guarded _ htask, calls, hG.issue other⟩
  | slot other =>
    by_cases heq : other = name
    · subst heq
      obtain ⟨handle, h', hon, hG'⟩ := hG.reset task
      unfold Ends
      rw [hon]
      exact ⟨.guarded _ htask, calls ++ [.reset handle], by rwa [← List.append_assoc]⟩
    · refine ⟨.guarded _ htask, calls, hG.changeSlot heq ?_ ?_⟩
      · refine (Handles.beside_issue ..).trans (Handles.beside_cancelSlot fun handle hheld => ?_)
        exact (hG.foreign_getD heq handle hheld).mono (Nat.le_succ _)
      · rintro _ ⟨⟩
        refine ⟨hG.issued_notMem, ?_⟩
        exact Nat.lt_of_lt_of_eq (Nat.lt_succ_self _) (Slot.issued_reset ..).symm

theorem preserves_cancelHandle_continuing (other : String) :
    (cancelHandle other : Act S Reply).Preserves (Continuing Good name before)
      (Continuing Good name before) := by
  intro h hC
  obtain ⟨calls, hG⟩ := hC
  unfold cancelHandle withNamed
  rw [ends_bind, ends_residents]
  cases hhandle : h.state.cancelHandles.find? other with
  | none => exact ⟨calls, hG⟩
  | some handle => exact ⟨calls, hG.cancelNamed hhandle⟩

/-- Emptying the slot or another one. -/
theorem preserves_cancelSlot_continuing (other : String) :
    (cancelSlot other : Act S Reply).Preserves (Continuing Good name before)
      (Continuing Good name before) := by
  intro h hC
  obtain ⟨calls, hG⟩ := hC
  by_cases heq : other = name
  · subst heq
    obtain ⟨h', hon, hG'⟩ := hG.cancel
    unfold Ends
    rw [hon]
    exact ⟨calls ++ [.cancel], by rwa [← List.append_assoc]⟩
  · unfold cancelSlot withNamed
    rw [ends_bind, ends_residents]
    cases hs : h.state.slots.find? other with
    | none => exact ⟨calls, hG⟩
    | some s =>
      refine ⟨calls, hG.changeSlot heq ?_ ?_⟩
      · exact Handles.beside_cancelSlot fun handle hheld => hG.slots heq hs hheld
      · intro handle hheld
        cases (Slot.current_cancel s h.state.handles).symm.trans hheld

/-- Another slot is made. -/
theorem Continuing.newSlot (hC : Continuing Good name before h) {other : String}
    (hne : other ≠ name) : Continuing Good name before { h with state := { h.state with
      slots := h.state.slots.insert other {} } } := by
  obtain ⟨calls, hG⟩ := hC
  exact ⟨calls, hG.changeSlot hne (.refl ..) nofun⟩

/-! ## Posting and running -/

theorem preserves_post_continuing {task : Task S} (htask : IsScripted Good task) (delay : Nanos) :
    (EventLoop.post task delay : Act S Bool).Preserves (Continuing Good name before)
      (Continuing Good name before) := by
  refine preserves_post (fun _ => id) fun h accepted queue hC hpost => ?_
  obtain ⟨-, rfl⟩ := TaskQueue.post_eq_ok hpost
  refine hC.aside (fun q hq => ?_) fun _ _ => .inl
  cases accepted with
  | true =>
    rcases TaskQueue.mem_pending_accept.1 hq with rfl | hq
    · exact .inr htask
    · exact .inl hq
  | false => exact .inl hq

/-- **Posting a script**, whatever guards it. -/
theorem preserves_postScript_continuing (label : String) (delay : Nanos) (guard : Guard)
    (proxy : Option String) {script : S} (hgood : Good script) :
    (Host.post label delay guard proxy script).Preserves (Continuing Good name before)
      (Continuing Good name before) := by
  have hscript : IsScripted Good (.scripted label script) := .scripted hgood
  unfold Host.post
  cases proxy with
  | none =>
    intro h hC
    rw [ends_bind]
    refine (ends_guardTask_continuing guard hscript hC).imp (fun t h' ht => ?_) fun _ _ => id
    exact (preserves_post_continuing ht.1 delay).bind (fun _ => .pure _) h' ht.2
  | some proxy =>
    refine preserves_lookUp fun number h hC => ?_
    rw [ends_bind]
    refine (ends_guardTask_continuing guard hscript hC).imp (fun t h' ht => ?_) fun _ _ => id
    exact (preserves_post_continuing (.proxied number ht.1) delay).bind (fun _ => .pure _) h' ht.2

/-- **Keeping a script**, whatever guards it. -/
theorem preserves_hold_continuing (other label : String) (guard : Guard) {script : S}
    (hgood : Good script) :
    (hold other label guard script).Preserves (Continuing Good name before)
      (Continuing Good name before) := by
  intro h hC
  unfold hold
  rw [ends_bind]
  refine (ends_guardTask_continuing guard (.scripted hgood) hC).imp (fun t h' ht => ?_)
    fun _ _ => id
  refine ht.2.aside (fun _ => .inl) fun other' task htask => ?_
  by_cases heq : other' = other
  · subst heq
    exact .inr (Option.some.inj ((Table.find?_insert_self ..).symm.trans htask) ▸ ht.1)
  · exact .inl ((Table.find?_insert_of_ne _ _ heq).symm.trans htask)

section Running

variable {run : S → Act S Unit} (hrun : ∀ script, Good script →
  (run script).Preserves (Continuing Good name before) (Continuing Good name before))

include hrun

/-- **Running a task** goes on with what is asked of the slot, as the scripts do that are run. -/
theorem preserves_runTask_continuing {task : Task S} (htask : IsScripted Good task) :
    (runTask run task).Preserves (Continuing Good name before) (Continuing Good name before) := by
  induction htask with
  | @scripted label script hgood =>
    have hran (time : Nanos) : (emit (.run label time) : Act S Unit).Preserves
        (Continuing Good name before) (Continuing Good name before) :=
      preserves_change fun _ hC => hC.change
    exact preserves_now.bind fun time => (hran time).bind fun _ => hrun script hgood
  | guarded handle _ ih =>
    refine preserves_residents.bind fun r => ?_
    split
    · exact .pure _
    · exact ih
  | proxied proxy _ ih =>
    refine preserves_residents.bind fun r => ?_
    split
    · exact preserves_change fun _ hC => hC.change
    · exact ih

/-- A task is taken out of the queue and run. -/
theorem ends_popped_continuing (h : Host S) (task : Task S) (queue : TaskQueue (Task S))
    (hC : Continuing Good name before h) (hpop : h.queue.popNext = some (task, queue)) :
    (runTask run task).Ends { h with queue } (fun _ => Continuing Good name before)
      fun _ => Continuing Good name before := by
  obtain ⟨p, rest, hpending, rfl, rfl⟩ := TaskQueue.popNext_eq_some.1 hpop
  have hscripted : IsScripted Good p.task := by
    obtain ⟨calls, hG⟩ := hC
    exact hG.queued (hpending ▸ List.mem_cons_self ..)
  refine preserves_runTask_continuing hrun hscripted _ (hC.change fun q hq => ?_)
  rw [hpending]
  exact List.mem_cons_of_mem _ hq

/-- A task that was kept is run. -/
theorem preserves_runHeld_continuing (other : String) :
    (runHeld run other).Preserves (Continuing Good name before) (Continuing Good name before) := by
  intro h hC
  unfold runHeld withNamed
  rw [ends_bind, ends_residents]
  cases htask : h.state.heldTasks.find? other with
  | none => exact hC
  | some task =>
    have hscripted : IsScripted Good task := by
      obtain ⟨calls, hG⟩ := hC
      exact hG.kept htask
    have herased : Continuing Good name before { h with state := { h.state with
        heldTasks := h.state.heldTasks.erase other } } :=
      hC.aside (fun _ => .inl) fun _ _ hkept => .inl (Table.find?_of_erase hkept)
    exact ((preserves_runTask_continuing hrun hscripted).bind fun _ => .pure _) _ herased

end Running

end Continuing

end Compositor.Host
