import Compositor.Proofs.Budget.Keeping
import Compositor.Proofs.Budget.Limits

/-!
# Even shares

In window mode nobody is asked what they would like: all visible stubs demand the same, the
share of a window. The share is an even part of the total, raised to the floor and cut to the
ceiling. An even part for each of the windows fits the total, whatever is cut from it, so as long
as nothing is raised every visible stub gets its share.

A floor above the even part breaks this. The visible are still served one after the other, each
with the whole share until the total is used up, and those at the end of the line get nothing –
`Plan.last_window_starved` shows four windows of which three get all there is.
-/

namespace Compositor

namespace Bounds

variable {b : Bounds} {windows : Nat}

/-- **The share of a window**: an even part of the total, within the floor and the ceiling. -/
def share (b : Bounds) (windows : Nat) : Nat :=
  max b.minStub (min (b.total / max windows 1) (max b.maxStub b.minStub))

/-- In window mode it does not matter what a visible stub would like. -/
theorem demand_eq_share (hmode : b.windows = some windows) (rank : Nat) {c : Contender}
    (hvisible : c.surface.visible = true) : b.demand rank c = b.share windows := by
  rw [demand_of_visible hvisible, wanted_of_windows hmode]
  rfl

/-- Whoever is visible has only the visible before them, and each of those demands a share. -/
theorem sum_demands_take_eq_mul (hmode : b.windows = some windows) {stubs : List StubView}
    {rank : Nat} {c : Contender} (hc : (Contender.serving stubs)[rank]? = some c)
    (hvisible : c.surface.visible = true) :
    (b.demands ((Contender.serving stubs).take rank)).sum = rank * b.share windows := by
  have hlt := (List.getElem?_eq_some_iff.1 hc).1
  have hall : b.demands ((Contender.serving stubs).take rank)
      = List.replicate rank (b.share windows) := by
    refine List.eq_replicate_iff.2 ⟨?_, fun d hd => ?_⟩
    · rw [demands, List.length_mapIdx, List.length_take_of_le hlt.le]
    · obtain ⟨k, hk, rfl⟩ := List.mem_mapIdx.1 hd
      have hbefore := List.getElem?_eq_getElem hk
      rw [List.length_take_of_le hlt.le] at hk
      rw [List.getElem?_take_of_lt hk] at hbefore
      refine demand_eq_share hmode k ((Contender.visible_iff_lt hbefore).2 ?_)
      exact hk.trans ((Contender.visible_iff_lt hc).1 hvisible)
  rw [hall, List.sum_replicate_nat]

/-! ## Shares that limits set -/

variable {limits : Limits} {total softLimit : Nat}

/-- Limits cannot cross, so the share is the even part within the floor and the ceiling. -/
theorem share_ofLimits (limits : Limits) (total softLimit : Nat) {windows : Nat}
    (hwindows : 0 < windows) (mode : Option Nat) :
    (ofLimits limits total softLimit mode).share windows
      = max (limits.minStubBytes total) (min (total / windows) (limits.maxStubBytes total)) := by
  have hcross := limits.minStubBytes_le total
  show max (limits.minStubBytes total) (min (total / max windows 1)
    (max (limits.maxStubBytes total) (limits.minStubBytes total))) = _
  rw [Nat.max_eq_left hwindows, Nat.max_eq_left hcross]

/-- The ceilings of the platforms leave something of a total of two bytes and more. -/
theorem maxStubBytes_pos (platform : Platform) (htwo : 2 ≤ total) :
    0 < (Limits.ofPlatform platform).maxStubBytes total := by
  have hhalf : 0 < total / 2 := Nat.div_pos htwo Nat.two_pos
  cases platform with
  | desktop => exact hhalf
  | android => exact Nat.lt_min.2 ⟨hhalf, by decide⟩
  | chromeOs => exact (by decide : 0 < 64 * mebibyte)

end Bounds

namespace Plan

variable {b : Bounds} {stubs : List StubView} {p : Plan} {rank windows : Nat} {c : Contender}

/-- **In window mode the visible take a share each, as long as there is something left.** -/
theorem Divides.bytesAt_eq_share (h : Divides b stubs p) (hmode : b.windows = some windows)
    (hc : (Contender.serving stubs)[rank]? = some c) (hvisible : c.surface.visible = true) :
    p.bytesAt c.index = min (b.share windows) (b.total - rank * b.share windows) := by
  rw [h.bytesAt_eq hc, Bounds.demand_eq_share hmode rank hvisible,
    Bounds.sum_demands_take_eq_mul hmode hc hvisible]

/-- **All visible stubs get the whole share just if the shares fit the total.** -/
theorem Divides.forall_bytesAt_eq_share_iff (h : Divides b stubs p)
    (hmode : b.windows = some windows) :
    (∀ c ∈ Contender.serving stubs, c.surface.visible = true →
        p.bytesAt c.index = b.share windows)
      ↔ (stubs.countP fun s => s.surface.any SurfaceState.visible) * b.share windows
          ≤ b.total := by
  have hcount := countP_serving id stubs
  simp only [id] at hcount
  rw [show (stubs.countP fun s => s.surface.any SurfaceState.visible) = _ from hcount.symm]
  constructor
  · intro hall
    -- the last of the visible finds a share left, behind those of all the others
    rcases Nat.eq_zero_or_pos ((Contender.serving stubs).countP fun c => c.surface.visible)
      with hnone | hsome
    · rw [hnone, Nat.zero_mul]
      exact Nat.zero_le _
    · obtain ⟨last, hlast⟩ := Nat.exists_eq_add_of_lt hsome
      rw [Nat.zero_add] at hlast
      have hlt : last < (Contender.serving stubs).length := by
        have hle := List.countP_le_length (p := fun c : Contender => c.surface.visible)
          (l := Contender.serving stubs)
        omega
      have hget := List.getElem?_eq_getElem hlt
      have hvisible := (Contender.visible_iff_lt hget).2 (by omega)
      have hbytes := h.bytesAt_eq_share hmode hget hvisible
      rw [hall _ (List.getElem_mem hlt) hvisible] at hbytes
      rw [hlast, Nat.add_mul, Nat.one_mul]
      rcases Nat.eq_zero_or_pos (b.share windows) with hzero | hpos
      · simp [hzero]
      · omega
  · intro hfits c hc hvisible
    obtain ⟨rank, hrank⟩ := List.getElem?_of_mem hc
    have hbefore := Nat.mul_le_mul_right (b.share windows)
      (Nat.succ_le_of_lt ((Contender.visible_iff_lt hrank).1 hvisible))
    rw [Nat.succ_mul] at hbefore
    rw [h.bytesAt_eq_share hmode hrank hvisible]
    omega

/-- **Windows share evenly, unless the floor is above an even part.** Take the limits of any
platform, any total that fits a word, at least one window and no more visible stubs than
windows. There is a plan. Whatever the stubs ask for, each visible one demands the same share,
which is an even part of the total within the floor and the ceiling, and is not nothing if the
total has two bytes for each window. In the order of service each gets that share or what those
before it leave. All get the whole of it just if the shares of all of them fit the total, and so
they do if the even part is not below the floor. -/
theorem exists_splits_evenly (platform : Platform) {total : Nat} (htotal : total < wordLimit)
    (softLimit : Nat) {windows : Nat} (hwindows : 0 < windows) {stubs : List StubView}
    (hfew : (stubs.countP fun s => s.surface.any SurfaceState.visible) ≤ windows) :
    let limits := Limits.ofPlatform platform
    ∃ p order share, ofStubs (.ofLimits limits total softLimit (some windows)) stubs = .ok p
      ∧ Contender.IsServing stubs order
      ∧ p.assignments.map Assignment.stub = stubs.map StubView.id
      ∧ share
        = max (limits.minStubBytes total) (min (total / windows) (limits.maxStubBytes total))
      ∧ (2 * windows ≤ total → 0 < share)
      ∧ (∀ rank c, order[rank]? = some c → c.surface.visible = true →
          p.bytesAt c.index = min share (total - rank * share))
      ∧ ((∀ c ∈ order, c.surface.visible = true → p.bytesAt c.index = share)
          ↔ (stubs.countP fun s => s.surface.any SurfaceState.visible) * share ≤ total)
      ∧ (limits.minStubBytes total ≤ total / windows →
          ∀ c ∈ order, c.surface.visible = true → p.bytesAt c.index = share) := by
  intro limits
  obtain ⟨p, hp, hdiv⟩ :=
    exists_divides (.ofLimits limits total softLimit (some windows)) htotal stubs
  have hshare := Bounds.share_ofLimits limits total softLimit hwindows (some windows)
  have heven := hdiv.forall_bytesAt_eq_share_iff rfl
  rw [hshare] at heven
  refine ⟨p, Contender.serving stubs, _, hp, Contender.serving_isServing stubs, hdiv.numbers, rfl,
    fun henough => ?_, fun rank c hc hvisible => ?_, heven, fun hfloor => heven.2 ?_⟩
  · have hpart : 0 < total / windows := Nat.div_pos (by omega) hwindows
    have hceiling := Bounds.maxStubBytes_pos platform (show 2 ≤ total by omega)
    exact Nat.lt_of_lt_of_le (Nat.lt_min.2 ⟨hpart, hceiling⟩) (Nat.le_max_right _ _)
  · rw [hdiv.bytesAt_eq_share rfl hc hvisible, hshare]
    rfl
  · -- nothing was raised, so the shares of all windows fit the total
    calc _ ≤ windows * (total / windows) := Nat.mul_le_mul hfew
            (Nat.max_le.2 ⟨hfloor, Nat.min_le_left _ _⟩)
      _ ≤ total := Nat.mul_div_le total windows

/-- Four visible stubs that were used at the same time, and a hidden one. -/
def fourWindows : List StubView :=
  [{ id := 1, surface := some ⟨1, true, 0⟩ },
    { id := 2, surface := some ⟨2, true, 0⟩, requested := 200 * mebibyte },
    { id := 3, surface := some ⟨3, true, 0⟩ },
    { id := 4, surface := some ⟨4, true, 0⟩, requested := mebibyte },
    { id := 5, surface := some ⟨5, false, 0⟩, requested := mebibyte }]

/-- Of 256 mebibytes each of four windows gets 64, whatever it asks for. -/
theorem exists_splits_evenly_fourWindows :
    256 * mebibyte < wordLimit ∧ 0 < 4
      ∧ (fourWindows.countP fun s => s.surface.any SurfaceState.visible) ≤ 4
      ∧ ∃ p, ofStubs (.ofLimits (.ofPlatform .desktop) (256 * mebibyte) 8 (some 4)) fourWindows
          = .ok p
        ∧ ∀ c ∈ Contender.serving fourWindows, c.surface.visible = true →
          p.bytesAt c.index = 64 * mebibyte := by
  have hfits : 256 * mebibyte < wordLimit := by decide
  have hfew : (fourWindows.countP fun s => s.surface.any SurfaceState.visible) ≤ 4 := by decide
  obtain ⟨p, order, share, hp, horder, -, hshare, -, -, -, heven⟩ :=
    exists_splits_evenly .desktop hfits 8 (Nat.succ_pos 3) hfew
  obtain rfl := horder.eq_serving
  obtain rfl : share = 64 * mebibyte := hshare.trans (by decide)
  exact ⟨hfits, Nat.succ_pos 3, hfew, p, hp, heven (by decide)⟩

/-- **A floor above the even part starves the last window.** Of 48 mebibytes an even part for
each of four windows would be twelve, but the floor is sixteen: three windows get sixteen each,
and the fourth gets nothing. -/
theorem last_window_starved :
    (fourWindows.countP fun s => s.surface.any SurfaceState.visible) ≤ 4
      ∧ 2 * 4 ≤ 48 * mebibyte
      ∧ ∃ p, ofStubs (.ofLimits (.ofPlatform .desktop) (48 * mebibyte) 8 (some 4)) fourWindows
          = .ok p
        ∧ ((Contender.serving fourWindows).take 4).all (fun c => c.surface.visible) = true
        ∧ ((Contender.serving fourWindows).take 4).map (fun c => p.bytesAt c.index)
          = [16 * mebibyte, 16 * mebibyte, 16 * mebibyte, 0] := by
  obtain ⟨p, hp, hdiv⟩ := exists_divides
    (.ofLimits (.ofPlatform .desktop) (48 * mebibyte) 8 (some 4)) (by decide) fourWindows
  obtain ⟨line, hline, hvisible, hbytes⟩ : ∃ line, Contender.serving fourWindows = line
      ∧ (line.take 4).all (fun c => c.surface.visible) = true
      ∧ (((Bounds.ofLimits (.ofPlatform .desktop) (48 * mebibyte) 8 (some 4)).grants line).take
          4).map Grant.bytes = [16 * mebibyte, 16 * mebibyte, 16 * mebibyte, 0] :=
    ⟨_, by cbv, by decide, by decide⟩
  refine ⟨by decide, by decide, p, hp, hline ▸ hvisible, ?_⟩
  rw [hdiv.map_bytesAt, hline, hbytes]

end Plan

end Compositor
