import Mathlib.Data.List.Nodup
import Compositor.Task.Cancel

/-!
# One live task for a slot

Each time a slot is filled it gives back a task under a handle of its own, and it remembers
the last of these handles only. The tasks may be run late, in any order, or never, and
a task looks at its own handle when its turn comes; so what counts is which handles are
canceled, of all that the slot ever gave out.

What was asked of a slot since it was new is a list of calls, and the ledger of handles is
shared with others, who issue handles and cancel their own meanwhile (`Handles.Beside`).
After any list of calls all tasks of the slot are canceled but for that of the latest
call, if this was a reset (`Slot.Shows.filter_returned`).
-/

namespace Compositor

section Cancel

variable (s : Slot) (handles : Handles) (handle : Handle)

@[simp] theorem Slot.current_cancel : (s.cancel handles).1.current = none := by
  unfold Slot.cancel
  cases hheld : s.current with
  | none => exact hheld
  | some held => rfl

@[simp] theorem Slot.issued_cancel : (s.cancel handles).2.issued = handles.issued := by
  unfold Slot.cancel
  cases s.current <;> rfl

/-- Emptying a slot cancels what it held, and nothing else. -/
@[simp] theorem Slot.isCanceled_cancel :
    (s.cancel handles).2.isCanceled handle
      = (decide (s.current = some handle) || handles.isCanceled handle) := by
  unfold Slot.cancel
  cases hheld : s.current with
  | none => rfl
  | some held =>
    show (handles.cancel held).isCanceled handle = _
    rw [Handles.isCanceled_cancel]
    by_cases heq : handle = held
    · simp [heq]
    · simp [heq, Ne.symm heq]

end Cancel

/-! ## Calls -/

/-- What is asked of a slot. -/
inductive SlotCall where
  /-- It is filled, and gives back a task under a handle. -/
  | reset (handle : Handle)
  /-- It is emptied. -/
  | cancel
  deriving DecidableEq, Repr

namespace SlotCall

/-- The handle of the task that was given back. -/
def handle? : SlotCall → Option Handle
  | reset handle => some handle
  | cancel => none

/-- The handles of all tasks that were given back, in order. -/
def returned (calls : List SlotCall) : List Handle := calls.filterMap handle?

/-- The handle of the task that the latest call gave back, if this was a reset. -/
def latest (calls : List SlotCall) : Option Handle := calls.getLast?.bind handle?

variable {calls : List SlotCall} {handle : Handle}

@[simp] theorem returned_concat_reset (calls : List SlotCall) (handle : Handle) :
    returned (calls ++ [.reset handle]) = returned calls ++ [handle] :=
  List.filterMap_append

@[simp] theorem returned_concat_cancel (calls : List SlotCall) :
    returned (calls ++ [.cancel]) = returned calls :=
  List.filterMap_append.trans (List.append_nil _)

@[simp] theorem latest_concat (calls : List SlotCall) (call : SlotCall) :
    latest (calls ++ [call]) = call.handle? := by
  unfold latest
  rw [List.getLast?_append, List.getLast?_singleton]
  rfl

/-- The latest call decides: it was a reset, and no cancel came since. -/
theorem latest_eq_some : latest calls = some handle ↔ calls.getLast? = some (.reset handle) := by
  unfold latest
  rw [Option.bind_eq_some_iff]
  constructor
  · rintro ⟨_ | _, hcall, ⟨⟩⟩
    exact hcall
  · exact fun hcall => ⟨_, hcall, rfl⟩

/-- The latest task was given back. -/
theorem mem_returned_of_latest (h : latest calls = some handle) : handle ∈ returned calls := by
  obtain ⟨call, hcall, hhandle⟩ := Option.bind_eq_some_iff.1 h
  exact List.mem_filterMap.2 ⟨call, List.mem_of_getLast? hcall, hhandle⟩

end SlotCall

open SlotCall

/-! ## What others do with the ledger -/

namespace Handles

variable {own : List Handle} {handles handles' handles'' : Handles} {handle : Handle}

/-- A handle that was issued to somebody else. -/
def IsForeign (own : List Handle) (handles : Handles) (handle : Handle) : Prop :=
  handle ∉ own ∧ handle < handles.issued

/-- **What others do with the ledger of handles.** They issue handles, and they cancel handles that
were issued to them. -/
structure Beside (own : List Handle) (handles handles' : Handles) : Prop where
  issued : handles.issued ≤ handles'.issued
  canceled {handle : Handle} (h : handles.isCanceled handle = true) :
    handles'.isCanceled handle = true
  others {handle : Handle} (h : handles'.isCanceled handle = true) :
    handles.isCanceled handle = true ∨ handles'.IsForeign own handle

theorem IsForeign.mono (h : handles.IsForeign own handle)
    (hissued : handles.issued ≤ handles'.issued) : handles'.IsForeign own handle :=
  ⟨h.1, Nat.lt_of_lt_of_le h.2 hissued⟩

/-- A handle that was issued before is not the one that is issued next. -/
theorem IsForeign.concat (h : handles.IsForeign own handle)
    (hissued : handles.issued ≤ handles'.issued) :
    handles'.IsForeign (own ++ [handles.issued]) handle := by
  refine ⟨?_, Nat.lt_of_lt_of_le h.2 hissued⟩
  rw [List.mem_append, List.mem_singleton]
  exact fun hmem => hmem.elim h.1 (Nat.ne_of_lt h.2)

theorem Beside.refl (own : List Handle) (handles : Handles) : handles.Beside own handles :=
  ⟨Nat.le_refl _, id, .inl⟩

theorem Beside.trans (h : handles.Beside own handles') (h' : handles'.Beside own handles'') :
    handles.Beside own handles'' where
  issued := Nat.le_trans h.issued h'.issued
  canceled hcanceled := h'.canceled (h.canceled hcanceled)
  others hcanceled := (h'.others hcanceled).elim
    (fun hcanceled => (h.others hcanceled).imp_right fun hforeign => hforeign.mono h'.issued) .inr

theorem beside_issue (own : List Handle) (handles : Handles) :
    handles.Beside own handles.issue.2 :=
  ⟨Nat.le_succ _, id, .inl⟩

theorem beside_cancel (hforeign : handles.IsForeign own handle) :
    handles.Beside own (handles.cancel handle) where
  issued := Nat.le_refl _
  canceled hcanceled := by
    rw [isCanceled_cancel, hcanceled, Bool.or_true]
  others hcanceled := by
    rw [isCanceled_cancel, Bool.or_eq_true, beq_iff_eq] at hcanceled
    rcases hcanceled with rfl | hcanceled
    · exact .inr hforeign
    · exact .inl hcanceled

/-- Another slot is emptied. -/
theorem beside_cancelSlot {s : Slot}
    (hforeign : ∀ handle, s.current = some handle → handles.IsForeign own handle) :
    handles.Beside own (s.cancel handles).2 := by
  unfold Slot.cancel
  cases hheld : s.current with
  | none => exact .refl own handles
  | some held => exact beside_cancel (hforeign held hheld)

end Handles

/-! ## What a slot shows -/

namespace Slot

theorem issued_reset (s : Slot) (handles : Handles) :
    (s.reset handles).2.2.issued = handles.issued + 1 :=
  s.issued_cancel handles.issue.2

theorem le_issued_reset (s : Slot) (handles : Handles) :
    handles.issued ≤ (s.reset handles).2.2.issued := by
  rw [issued_reset]
  exact Nat.le_succ _

/-- **What a slot and the ledger show of the calls.** The slot holds the latest task, this one
alone is not canceled, and handles are issued in order. -/
structure Shows (calls : List SlotCall) (s : Slot) (handles : Handles) : Prop where
  current : s.current = latest calls
  live {handle : Handle} (h : handle ∈ returned calls) :
    handles.isCanceled handle = false ↔ latest calls = some handle
  increasing : (returned calls).Pairwise (· < ·)
  returned {handle : Handle} (h : handle ∈ returned calls) : handle < handles.issued
  canceled {handle : Handle} (h : handles.isCanceled handle = true) : handle < handles.issued

namespace Shows

variable {calls : List SlotCall} {s : Slot} {handles handles' : Handles}

/-- A new slot. -/
theorem new (hissued : ∀ handle, handles.isCanceled handle = true → handle < handles.issued) :
    Shows [] {} handles :=
  ⟨rfl, nofun, .nil, nofun, hissued _⟩

/-- What a slot holds was given back. -/
theorem mem_returned (h : Shows calls s handles) {handle : Handle}
    (hheld : s.current = some handle) : handle ∈ SlotCall.returned calls :=
  mem_returned_of_latest (h.current.symm.trans hheld)

/-- A slot that is filled again. -/
theorem reset (h : Shows calls s handles) :
    Shows (calls ++ [.reset (s.reset handles).1]) (s.reset handles).2.1 (s.reset handles).2.2 := by
  have hfresh : (s.reset handles).1 = handles.issued := rfl
  have hissued := s.issued_reset handles
  have hcanceled (handle : Handle) : (s.reset handles).2.2.isCanceled handle =
      (decide (s.current = some handle) || handles.isCanceled handle) :=
    s.isCanceled_cancel handles.issue.2 handle
  -- neither what the slot held nor what was canceled before is the new handle
  have hbefore {handle : Handle} (hnot : (s.reset handles).2.2.isCanceled handle = true) :
      handle < handles.issued := by
    rw [hcanceled, Bool.or_eq_true, decide_eq_true_iff] at hnot
    exact hnot.elim (fun hheld => h.returned (h.mem_returned hheld)) h.canceled
  refine ⟨(latest_concat calls (.reset handles.issued)).symm, fun {handle} hmem => ?_, ?_,
    fun {handle} hmem => ?_, fun {handle} hnot => ?_⟩
  · rw [latest_concat, hfresh]
    rw [returned_concat_reset, List.mem_append, List.mem_singleton, hfresh] at hmem
    rcases hmem with hmem | rfl
    · have hne : some handles.issued ≠ some handle := fun heq =>
        Nat.ne_of_lt (h.returned hmem) (Option.some.inj heq).symm
      refine iff_of_false ?_ hne
      rw [hcanceled, Bool.or_eq_false_iff, decide_eq_false_iff_not, h.live hmem, h.current]
      exact fun hboth => hboth.1 hboth.2
    · refine iff_of_true (Bool.eq_false_iff.2 fun hnot => ?_) rfl
      exact Nat.lt_irrefl _ (hbefore hnot)
  · rw [returned_concat_reset, List.pairwise_append]
    refine ⟨h.increasing, List.pairwise_singleton .., fun handle hmem fresh hfresh' => ?_⟩
    rw [List.mem_singleton.1 hfresh', hfresh]
    exact h.returned hmem
  · rw [returned_concat_reset, List.mem_append, List.mem_singleton, hfresh] at hmem
    rw [hissued]
    exact hmem.elim (fun hmem => Nat.lt_succ_of_lt (h.returned hmem)) fun heq =>
      heq ▸ Nat.lt_succ_self _
  · rw [hissued]
    exact Nat.lt_succ_of_lt (hbefore hnot)

/-- A slot that is emptied. -/
theorem cancel (h : Shows calls s handles) :
    Shows (calls ++ [.cancel]) (s.cancel handles).1 (s.cancel handles).2 := by
  refine ⟨by rw [current_cancel, latest_concat]; rfl, fun {handle} hmem => ?_, ?_,
    fun {handle} hmem => ?_, fun {handle} hnot => ?_⟩
  · rw [returned_concat_cancel] at hmem
    rw [latest_concat, isCanceled_cancel, Bool.or_eq_false_iff, decide_eq_false_iff_not,
      h.live hmem, h.current]
    exact iff_of_false (fun hboth => hboth.1 hboth.2) nofun
  · rw [returned_concat_cancel]
    exact h.increasing
  · rw [returned_concat_cancel] at hmem
    rw [issued_cancel]
    exact h.returned hmem
  · rw [isCanceled_cancel, Bool.or_eq_true, decide_eq_true_iff] at hnot
    rw [issued_cancel]
    exact hnot.elim (fun hheld => h.returned (h.mem_returned hheld)) h.canceled

/-- What others do with the ledger does not matter. -/
theorem beside (h : Shows calls s handles)
    (hbeside : handles.Beside (SlotCall.returned calls) handles') : Shows calls s handles' where
  current := h.current
  live {handle} hmem := by
    rw [← h.live hmem, Bool.eq_false_iff, Bool.eq_false_iff]
    refine not_congr ⟨fun hnot => ?_, hbeside.canceled⟩
    exact (hbeside.others hnot).resolve_right fun hother => hother.1 hmem
  increasing := h.increasing
  returned hmem := Nat.lt_of_lt_of_le (h.returned hmem) hbeside.issued
  canceled hnot := (hbeside.others hnot).elim
    (fun hnot => Nat.lt_of_lt_of_le (h.canceled hnot) hbeside.issued) And.right

/-- **Of all tasks that a slot gave back** only that of the latest call is live, if this was a
reset. -/
theorem filter_returned (h : Shows calls s handles) :
    (SlotCall.returned calls).filter (fun handle => !handles.isCanceled handle)
      = (latest calls).toList := by
  cases hlatest : latest calls with
  | none =>
    refine List.filter_eq_nil_iff.2 fun handle hmem hlive => ?_
    have hlive := (h.live hmem).1 (Bool.not_eq_true' _ ▸ hlive)
    cases hlatest.symm.trans hlive
  | some fresh =>
    have hmem := mem_returned_of_latest hlatest
    have hlive (handle : Handle) (hhandle : handle ∈ SlotCall.returned calls) :
        (!handles.isCanceled handle) = decide (handle = fresh) := by
      rw [Bool.eq_iff_iff, Bool.not_eq_true', h.live hhandle, hlatest, decide_eq_true_iff,
        Option.some_inj, eq_comm]
    rw [List.filter_congr hlive, List.filter_eq, List.count_eq_one_of_mem
      (h.increasing.imp Nat.ne_of_lt) hmem]
    rfl

/-- The slot is pending if its latest call was a reset. -/
theorem isPending_eq (h : Shows calls s handles) :
    s.isPending handles = (latest calls).isSome := by
  unfold isPending
  rw [h.current]
  cases hlatest : latest calls with
  | none => rfl
  | some fresh =>
    have hlive := (h.live (mem_returned_of_latest hlatest)).2 hlatest
    show (!handles.isCanceled fresh) = true
    rw [hlive]
    rfl

end Shows

end Slot

end Compositor
