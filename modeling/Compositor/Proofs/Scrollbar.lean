import Compositor.Scrollbar
import Compositor.Proofs.Precision

/-!
# When scrollbars cannot be seen any more

A scrollbar that was scrolled shows fully for its delay, that of the scroll included, and
then less and less until it has faded for as long as that takes. It cannot be seen exactly
from then on: as long as anything is left of the fade, what is left is a positive share of
it, and stays positive in single precision.

Whoever looks at regular times finds it gone at one of them first, since time goes on.
-/

namespace Compositor.Scrollbar

variable {bar : Scrollbar} {since time : Nanos}

/-- **The scrollbar has faded** by a time if it was last scrolled at another: its delay is over,
and so is its fade. -/
def HasFaded (bar : Scrollbar) (since time : Nanos) : Prop :=
  bar.delay < time - since ∧ bar.delay + bar.duration ≤ time - since

instance : Decidable (HasFaded bar since time) := inferInstanceAs (Decidable (_ ∧ _))

/-- How clearly it shows at some time, or not at all if that cannot be told. -/
def opacityOf (bar : Scrollbar) (time : Nanos) : Float32 :=
  (bar.opacityAt time).toOption.getD Transform.zero

/-- **The frames** that are seen at regular times: how clearly it shows, and when. -/
def frames (bar : Scrollbar) (start interval : Nanos) (count : Nat) : List (Float32 × Nanos) :=
  (List.range count).map fun k => (bar.opacityOf (start + k * interval), start + k * interval)

theorem frames_succ (bar : Scrollbar) (start interval : Nanos) (count : Nat) :
    bar.frames start interval (count + 1) = bar.frames start interval count ++
      [(bar.opacityOf (start + count * interval), start + count * interval)] := by
  unfold frames
  rw [List.range_succ, List.map_append]
  rfl

/-- When the last of some frames is due, so are all of them. -/
theorem filter_frames_eq_self {start interval now : Nanos} {last : Nat}
    (hdue : start + last * interval ≤ now) :
    (bar.frames start interval (last + 1)).filter (fun frame => frame.2 ≤ now)
      = bar.frames start interval (last + 1) := by
  refine List.filter_eq_self.2 fun frame hframe => decide_eq_true ?_
  obtain ⟨k, hk, rfl⟩ := List.mem_map.1 hframe
  have hle : k ≤ last := Nat.le_of_lt_succ (List.mem_range.1 hk)
  exact Nat.le_trans (Nat.add_le_add_left (Nat.mul_le_mul_right _ hle) _) hdue

/-- Bringing it up to date tells whether it shows. -/
theorem animate_eq_ok {opacity : Float32} (hopacity : bar.opacityAt time = .ok opacity) :
    bar.animate time = .ok (decide (Transform.zero < opacity), { bar with opacity }) := by
  unfold animate
  rw [hopacity]
  rfl

theorem HasFaded.mono {time' : Nanos} (h : bar.HasFaded since time) (hle : time ≤ time') :
    bar.HasFaded since time' :=
  have hlonger : time - since ≤ time' - since := Nat.sub_le_sub_right hle since
  ⟨Nat.lt_of_lt_of_le h.1 hlonger, Nat.le_trans h.2 hlonger⟩

/-- **Seen at regular times, it has faded from one of them on.** -/
theorem exists_first_faded (bar : Scrollbar) {start interval : Nanos} (hle : since ≤ start)
    (hinterval : 0 < interval) :
    ∃ last : Nat, ∀ k : Nat, bar.HasFaded since (start + k * interval) ↔ last ≤ k := by
  have hsome : ∃ k, bar.HasFaded since (start + k * interval) := by
    refine ⟨bar.delay + bar.duration + 1, ?_⟩
    have helapsed : bar.delay + bar.duration + 1
        ≤ start + (bar.delay + bar.duration + 1) * interval - since :=
      Nat.le_trans (Nat.le_mul_of_pos_right _ hinterval)
        (Nat.le_sub_of_add_le (Nat.add_comm .. ▸ Nat.add_le_add_right hle _))
    exact ⟨Nat.lt_of_le_of_lt (Nat.le_add_right ..) helapsed, Nat.le_of_lt helapsed⟩
  refine ⟨Nat.find hsome, fun k => ⟨fun hfaded => Nat.find_min' hsome hfaded, fun hle => ?_⟩⟩
  exact (Nat.find_spec hsome).mono (Nat.add_le_add_left (Nat.mul_le_mul_right _ hle) _)

section Awakened

variable (hreleased : bar.pinching = false) (hawakened : bar.awakened = some since)
  (hspan : bar.delay + bar.duration ≤ longestSpan)

include hreleased hawakened hspan

/-- **How clearly it shows can be told at any time**, and it does not show exactly when it has
faded. -/
theorem opacityAt_eq_ok (time : Nanos) :
    bar.opacityAt time = .ok (bar.opacityOf time) ∧
      (bar.HasFaded since time → bar.opacityOf time = Transform.zero) ∧
      (¬ bar.HasFaded since time → Transform.zero < bar.opacityOf time) := by
  -- it is enough to find the opacity, whatever it is called
  suffices hfound : ∃ opacity, bar.opacityAt time = .ok opacity ∧
      (bar.HasFaded since time → opacity = Transform.zero) ∧
      (¬ bar.HasFaded since time → Transform.zero < opacity) by
    obtain ⟨opacity, hopacity, hrest⟩ := hfound
    have heq : bar.opacityOf time = opacity := by
      unfold opacityOf
      rw [hopacity]
      rfl
    rw [heq]
    exact ⟨hopacity, hrest⟩
  have hfadeEnd : Nanos.add bar.delay bar.duration = .ok (bar.delay + bar.duration) :=
    Nanos.add_eq_ok.2 ⟨rfl, hspan⟩
  unfold opacityAt HasFaded
  rw [hreleased, if_neg Bool.false_ne_true, hawakened]
  dsimp only
  by_cases hstays : time - since ≤ bar.delay
  · rw [if_pos hstays]
    exact ⟨Transform.one, rfl, fun hfaded => absurd hfaded.1 (Nat.not_lt.2 hstays),
      fun _ => by decide⟩
  · rw [if_neg hstays, hfadeEnd]
    have hover : bar.delay < time - since := Nat.lt_of_not_le hstays
    by_cases hfades : time - since < bar.delay + bar.duration
    · refine ⟨Nanos.toSeconds32 (bar.delay + bar.duration - (time - since))
        / bar.duration.toSeconds32, if_pos hfades, fun hfaded => ?_, fun _ => ?_⟩
      · exact absurd hfaded.2 (Nat.not_le.2 hfades)
      · have hlasts : 0 < bar.duration :=
          Nat.pos_of_lt_add_right (Nat.lt_trans hover hfades)
        exact Nanos.zero_lt_quotient (Nat.sub_pos_of_lt hfades) hlasts
          (Nat.le_trans (Nat.sub_le ..) hspan) (Nat.le_trans (Nat.le_add_left ..) hspan)
    · refine ⟨Transform.zero, if_neg hfades, fun _ => rfl, fun hfaded => ?_⟩
      exact absurd ⟨hover, Nat.not_lt.1 hfades⟩ hfaded

/-- It shows exactly as long as it has not faded. -/
theorem zero_lt_opacityOf_iff (time : Nanos) :
    Transform.zero < bar.opacityOf time ↔ ¬ bar.HasFaded since time := by
  obtain ⟨-, hzero, hpos⟩ := opacityAt_eq_ok hreleased hawakened hspan time
  refine ⟨fun hshows hfaded => ?_, hpos⟩
  rw [hzero hfaded] at hshows
  exact absurd hshows (by decide)

end Awakened

end Compositor.Scrollbar
