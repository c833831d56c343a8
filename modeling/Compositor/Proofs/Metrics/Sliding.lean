import Mathlib.Algebra.Order.BigOperators.Group.List
import Mathlib.Algebra.Order.Floor.Semifield
import Mathlib.Data.List.DropRight
import Mathlib.Data.List.Rotate
import Mathlib.Data.Rat.Floor
import Compositor.Metrics.Window

/-!
# A window slides over what is pushed

Read from the slot that is written next, round and round, a window is a queue: what was pushed
last stands at its end, and what is overwritten is its head. So pushing appends, and drops from
the front what no longer fits, whether the slots are still being filled or already reused. What
was pushed decides what is kept and where: a window holds the end of what was pushed, and a
sample stays in the slot that its number falls on.

Mean and maximum speak of the samples kept, in whatever order they stand. The mean is rounded
down, and so it is never above the maximum; it is missing only where the total of the samples is
no span.
-/

namespace Compositor.Window

variable {α : Type} {w : Window α}

/-- The samples kept, the oldest first. -/
def contents (w : Window α) : List α := w.samples.rotate w.next

/-- **A window after some samples were pushed** into it, one after the other. -/
def sliding (capacity : Nat) (samples : List α) : Window α :=
  samples.foldl push (.ofCapacity capacity)

/-- The slots stay as many as they were. -/
theorem capacity_sliding (capacity : Nat) (samples : List α) :
    (sliding capacity samples).capacity = max capacity 1 := by
  unfold sliding
  induction samples using List.reverseRecOn with
  | nil => rfl
  | append_singleton samples x ih =>
    rw [List.foldl_append]
    exact (capacity_push _ x).trans ih

/-- The window has been filled with some samples: it keeps the end of them, and goes on where
they end. -/
structure Follows (w : Window α) (pushed : List α) : Prop where
  pos : 0 < w.capacity
  next : w.next = pushed.length % w.capacity
  size : w.size = min pushed.length w.capacity
  contents : w.contents = pushed.rtake w.capacity

/-- Pushing into a window that has been filled so far. -/
theorem push_of_pos (hpos : 0 < w.capacity) (x : α) :
    w.push x =
      { w with
        samples :=
          if w.samples.length < w.capacity then w.samples ++ [x] else w.samples.set w.next x
        next := (w.next + 1) % w.capacity } := by
  unfold push
  rw [if_neg hpos.ne']

/-- As long as the slots are being filled, nothing goes round. -/
theorem rotate_of_le {xs : List α} {capacity : Nat} (hle : xs.length ≤ capacity) :
    xs.rotate (xs.length % capacity) = xs := by
  rcases hle.eq_or_lt with heq | hlt
  · rw [heq, Nat.mod_self, List.rotate_zero]
  · rw [Nat.mod_eq_of_lt hlt, List.rotate_length]

/-- Overwriting the head of a queue that goes round, and going on to the next slot. -/
theorem rotate_set (xs : List α) (x : α) {k : Nat} (hk : k < xs.length) :
    (xs.set k x).rotate ((k + 1) % xs.length) = (xs.rotate k).drop 1 ++ [x] := by
  have hlength : (xs.set k x).length = xs.length := List.length_set ..
  rw [← hlength, List.rotate_mod,
    List.rotate_eq_drop_append_take (by rw [List.length_set]; exact hk),
    List.rotate_eq_drop_append_take hk.le, List.drop_set_of_lt (Nat.lt_succ_self k),
    List.take_add_one, List.take_set_of_le (le_refl k), List.getElem?_set_self hk,
    List.drop_append_of_le_length (by rw [List.length_drop]; omega), List.drop_drop]
  simp only [Option.toList_some, List.append_assoc]

namespace Follows

variable {pushed : List α}

theorem ofCapacity (capacity : Nat) : Follows (.ofCapacity capacity : Window α) [] where
  pos := by unfold Window.ofCapacity; exact Nat.lt_of_lt_of_le Nat.one_pos (Nat.le_max_right ..)
  next := (Nat.zero_mod _).symm
  size := (Nat.zero_min _).symm
  contents := by simp [Window.contents, Window.ofCapacity, List.rtake]

/-- **Pushing one more sample.** -/
theorem push (h : Follows w pushed) (x : α) : Follows (w.push x) (pushed ++ [x]) := by
  obtain ⟨hpos, hnext, hsize, hcontents⟩ := h
  have hcapacity := capacity_push w x
  have hlength : (pushed ++ [x]).length = pushed.length + 1 := List.length_append ..
  refine ⟨hcapacity ▸ hpos, ?_, ?_, ?_⟩
  · rw [hcapacity, hlength, push_of_pos hpos, hnext]
    exact Nat.mod_add_mod ..
  · rw [hcapacity, hlength, size_push w x (hsize ▸ Nat.min_le_right ..), hsize]
    omega
  · rw [hcapacity, push_of_pos hpos]
    unfold Window.contents Window.size at *
    dsimp only
    by_cases hfree : w.samples.length < w.capacity
    · have hall : w.samples.length = pushed.length := by omega
      rw [hnext, ← hall, rotate_of_le hfree.le, List.rtake, Nat.sub_eq_zero_of_le (hall ▸ hfree.le),
        List.drop_zero] at hcontents
      rw [if_pos hfree, hcontents, hnext, Nat.mod_add_mod, ← hlength, List.rtake,
        rotate_of_le (by omega), Nat.sub_eq_zero_of_le (by omega), List.drop_zero]
    · have hfull : w.samples.length = w.capacity := by omega
      have hlt : w.next < w.samples.length := by rw [hnext, hfull]; exact Nat.mod_lt _ hpos
      rw [if_neg hfree, ← hfull, rotate_set w.samples x hlt, hcontents, List.rtake, List.rtake,
        List.drop_drop, hlength, List.drop_append_of_le_length (by omega)]
      congr 2
      omega

/-- Pushing one sample after the other. -/
theorem foldl (h : Follows w pushed) (samples : List α) :
    Follows (samples.foldl Window.push w) (pushed ++ samples) := by
  induction samples generalizing w pushed with
  | nil => rwa [List.append_nil]
  | cons x rest ih =>
    rw [List.append_cons]
    exact ih (h.push x)

theorem sliding (capacity : Nat) (samples : List α) :
    Follows (Window.sliding capacity samples) samples :=
  (ofCapacity capacity).foldl samples

/-- The samples kept are the end of what was pushed, in some order. -/
theorem perm (h : Follows w pushed) : w.samples.Perm (pushed.rtake w.capacity) :=
  h.contents ▸ (List.rotate_perm ..).symm

/-- **A sample that is kept is in the slot that its number falls on.** -/
theorem getElem? (h : Follows w pushed) {i : Nat} (hi : i < pushed.length)
    (hkept : pushed.length ≤ i + w.capacity) : w.samples[i % w.capacity]? = pushed[i]? := by
  obtain ⟨hpos, hnext, hsize, hcontents⟩ := h
  unfold Window.contents Window.size at *
  -- the place of the sample among those kept, the oldest first
  obtain ⟨k, hk⟩ : ∃ k, pushed.length - w.capacity + k = i :=
    ⟨i - (pushed.length - w.capacity), by omega⟩
  have hplace : w.contents[k]? = pushed[i]? := by
    unfold Window.contents
    rw [hcontents, List.rtake, List.getElem?_drop, hk]
  rw [← hplace]
  unfold Window.contents
  rw [List.getElem?_rotate (by omega), hnext]
  congr 1
  rcases Nat.lt_or_ge pushed.length w.capacity with hfree | hfull
  · have hlength : w.samples.length = pushed.length := by omega
    have hsame : k = i := by omega
    rw [hlength, Nat.mod_eq_of_lt hfree, Nat.add_mod_right, hsame, Nat.mod_eq_of_lt hi,
      Nat.mod_eq_of_lt (hi.trans hfree)]
  · have hlength : w.samples.length = w.capacity := by omega
    have hsum : k + pushed.length = i + w.capacity := by omega
    rw [hlength, Nat.add_mod_mod, hsum, Nat.add_mod_right]

end Follows

/-! ## Mean and maximum -/

/-- The exact mean of the spans kept; zero if there are none. -/
def mean (w : Window Nanos) : ℚ := (w.samples.sum : ℚ) / w.size

/-- The maximum is zero, or one of the spans kept, and no span kept is longer. -/
theorem longest_isGreatest (w : Window Nanos) :
    (w.samples = [] → w.longest = 0) ∧ (w.samples ≠ [] → w.longest ∈ w.samples) ∧
      ∀ span ∈ w.samples, span ≤ w.longest := by
  unfold longest
  rw [List.foldl_max]
  cases hmax : w.samples.max? with
  | none =>
    obtain hnil := List.max?_eq_none_iff.1 hmax
    rw [hnil]
    exact ⟨fun _ => rfl, fun hne => absurd rfl hne, fun _ hspan => absurd hspan (List.not_mem_nil)⟩
  | some longest =>
    obtain ⟨hmem, hle⟩ := List.max?_eq_some_iff.1 hmax
    rw [Option.getD_some, Nat.zero_max]
    refine ⟨fun hnil => ?_, fun _ => hmem, hle⟩
    rw [hnil] at hmem
    exact absurd hmem List.not_mem_nil

/-- The mean, rounded down, is not above the maximum. -/
theorem floor_mean_le_longest (w : Window Nanos) : ⌊w.mean⌋₊ ≤ w.longest := by
  have hsum : w.samples.sum ≤ w.size * w.longest :=
    List.sum_le_card_nsmul w.samples w.longest (longest_isGreatest w).2.2
  unfold mean
  rw [Nat.floor_div_eq_div]
  exact Nat.div_le_of_le_mul hsum

/-- Fewer than `2 ^ 32` spans have a mean if their total is a span, and the mean is then rounded
down. -/
theorem average_of_le {w : Window Nanos} (hsize : w.size < word32Limit)
    (htotal : w.samples.sum ≤ longestSpan) : w.average = .ok ⌊w.mean⌋₊ := by
  have hsum : Nanos.sum w.samples = .ok w.samples.sum := if_pos htotal
  unfold average mean size at *
  rw [Nat.floor_div_eq_div]
  cases hsamples : w.samples with
  | nil =>
    rw [isEmpty, hsamples]
    rfl
  | cons x rest =>
    have hne : w.samples.length ≠ 0 := by rw [hsamples]; exact Nat.succ_ne_zero _
    rw [← hsamples, hsum, isEmpty, hsamples, List.isEmpty_cons, if_neg Bool.false_ne_true,
      ← hsamples, Nat.mod_eq_of_lt hsize]
    exact if_neg hne

/-- There is no mean if the total is no span. -/
theorem average_of_lt {w : Window Nanos} (htotal : longestSpan < w.samples.sum) :
    w.average = .error .spanSumOverflow := by
  have hsum : Nanos.sum w.samples = .error .spanSumOverflow := if_neg (Nat.not_le.2 htotal)
  have hempty : w.isEmpty = false := by
    unfold isEmpty
    cases hsamples : w.samples with
    | nil =>
      rw [hsamples] at htotal
      exact absurd htotal (Nat.not_lt_zero _)
    | cons => rfl
  unfold average
  rw [hempty, if_neg Bool.false_ne_true, hsum]
  rfl

/-- **A window slides over what is pushed.** It keeps the end of what was pushed, as much as it
has slots for, each sample in the slot that its number falls on. Its maximum is the longest span
kept, and its mean is the exact mean rounded down to the nanosecond, which is not above the
maximum; it is missing exactly where the total of the spans kept is no span. -/
theorem sliding_keeps_end (capacity : Nat) (hcapacity : capacity < word32Limit)
    (spans : List Nanos) :
    let slots := max capacity 1
    let w := sliding capacity spans
    w.samples.Perm (spans.rtake slots) ∧
      (∀ i < spans.length, spans.length ≤ i + slots → w.samples[i % slots]? = spans[i]?) ∧
      w.size = min spans.length slots ∧
      ((w.samples = [] → w.longest = 0) ∧ (w.samples ≠ [] → w.longest ∈ w.samples) ∧
        ∀ span ∈ w.samples, span ≤ w.longest) ∧
      (w.samples.sum ≤ longestSpan → w.average = .ok ⌊w.mean⌋₊ ∧ ⌊w.mean⌋₊ ≤ w.longest) ∧
      (longestSpan < w.samples.sum → w.average = .error .spanSumOverflow) := by
  intro slots w
  have hfollows : Follows w spans := .sliding capacity spans
  have hslots : w.capacity = slots := capacity_sliding capacity spans
  have hsize : w.size = min spans.length slots := hslots ▸ hfollows.size
  have hlimit : w.size < word32Limit := by
    have hle : slots < word32Limit := max_lt hcapacity (by decide)
    omega
  refine ⟨hslots ▸ hfollows.perm, fun i hi hkept => ?_, hsize, longest_isGreatest w,
    fun htotal => ⟨average_of_le hlimit htotal, floor_mean_le_longest w⟩, average_of_lt⟩
  rw [← hslots] at hkept ⊢
  exact hfollows.getElem? hi hkept

/-- Four spans are pushed into three slots: the last takes the slot of the first, and the mean
is that of the last three. -/
theorem sliding_keeps_end_four :
    let w := sliding 3 [10, 20, 30, 41]
    3 < word32Limit ∧ w.samples = [41, 20, 30] ∧ w.samples.Perm [20, 30, 41] ∧
      w.average = .ok 30 ∧ w.longest = 41 := by
  intro w
  have hlimit : 3 < word32Limit := by decide
  obtain ⟨hperm, -, -, -, hmean, -⟩ := sliding_keeps_end 3 hlimit [10, 20, 30, 41]
  refine ⟨hlimit, by decide, hperm, (hmean (by decide)).1.trans ?_, by decide⟩
  rw [mean, Nat.floor_div_eq_div]
  rfl

end Compositor.Window
