import Compositor.Proofs.Budget.Following
import Compositor.Proofs.Budget.Showing

/-!
# Who keeps which buffer

A stub whose surface is visible keeps both of its buffers. A hidden one may at most keep the
frame that it presented last, and does so as long as its rank is below the soft limit. Ranks
count the visible too, and the visible are served first. So those who keep a frame are the
front of the line: all the visible, and behind them as many of the hidden as the limit still
has room for. Whoever stands behind the front has nothing at all.
-/

namespace Compositor

/-- If exactly the first `k` of a list have a property, then so many of its members have it. -/
theorem countP_eq_min_of_forall {α : Type} {q : α → Bool} {l : List α} {k : Nat}
    (h : ∀ i a, l[i]? = some a → (q a = true ↔ i < k)) : l.countP q = min k l.length := by
  have hfront : (l.take k).countP q = (l.take k).length := by
    refine List.countP_eq_length.2 fun a ha => ?_
    obtain ⟨i, hi⟩ := List.getElem?_of_mem ha
    rw [List.getElem?_take] at hi
    split at hi
    · next hlt => exact (h i a hi).2 hlt
    · cases hi
  have hback : (l.drop k).countP q = 0 := by
    refine List.countP_eq_zero.2 fun a ha hq => ?_
    obtain ⟨i, hi⟩ := List.getElem?_of_mem ha
    rw [List.getElem?_drop] at hi
    exact absurd ((h _ a hi).1 hq) (Nat.not_lt.2 (Nat.le_add_right k i))
  conv_lhs => rw [← List.take_append_drop k l]
  rw [List.countP_append, hfront, hback, List.length_take, Nat.add_zero]

/-- **The visible are the front of the line.** -/
theorem Contender.visible_iff_lt {stubs : List StubView} {rank : Nat} {c : Contender}
    (hc : (serving stubs)[rank]? = some c) :
    c.surface.visible = true ↔ rank < (serving stubs).countP fun c => c.surface.visible := by
  rw [List.countP_eq_length_filter]
  show _ ↔ rank < (ofSort SurfaceState.visible (serving stubs)).length
  rw [serving_eq_append upClosed_visible stubs] at hc
  by_cases hrank : rank < (ofSort SurfaceState.visible (serving stubs)).length
  · rw [List.getElem?_append_left hrank] at hc
    exact iff_of_true (List.mem_filter.1 (List.mem_of_getElem? hc)).2 hrank
  · rw [List.getElem?_append_right (Nat.le_of_not_lt hrank)] at hc
    have hhidden := (List.mem_filter.1 (List.mem_of_getElem? hc)).2
    exact iff_of_false (by simpa using hhidden) hrank

namespace Plan

/-- What a plan gives to the stub at some place. -/
def allocationAt (p : Plan) (index : Nat) : Allocation :=
  ((p.assignments[index]?).map Assignment.allocation).getD .empty

variable {b : Bounds} {stubs : List StubView} {p : Plan} {rank : Nat} {c : Contender}

/-- The contender of some rank has what the line grants it. -/
theorem Divides.allocationAt_eq (h : Divides b stubs p)
    (hc : (Contender.serving stubs)[rank]? = some c) :
    p.allocationAt c.index
      = (b.grant rank (b.total - (b.demands ((Contender.serving stubs).take rank)).sum)
          c).assignment.allocation := by
  rw [allocationAt, h.served hc]
  rfl

theorem Divides.backbuffer_eq (h : Divides b stubs p)
    (hc : (Contender.serving stubs)[rank]? = some c) :
    (p.allocationAt c.index).backbuffer = c.surface.visible := by
  rw [h.allocationAt_eq hc]
  rfl

/-- **A frame is kept at the front of the line**, which is as long as there are visible stubs, or
as the soft limit allows. -/
theorem Divides.frontbuffer_iff (h : Divides b stubs p)
    (hc : (Contender.serving stubs)[rank]? = some c) :
    (p.allocationAt c.index).frontbuffer = true
      ↔ rank < max ((Contender.serving stubs).countP fun c => c.surface.visible) b.softLimit := by
  rw [h.allocationAt_eq hc]
  show (c.surface.visible || decide (rank < b.softLimit)) = true ↔ _
  rw [Bool.or_eq_true, Contender.visible_iff_lt hc, decide_eq_true_eq, lt_max_iff]

/-- A hidden stub that keeps no frame is given nothing. -/
theorem Divides.allocationAt_eq_empty (h : Divides b stubs p)
    (hc : (Contender.serving stubs)[rank]? = some c) (hhidden : c.surface.visible = false)
    (hframe : (p.allocationAt c.index).frontbuffer = false) :
    p.allocationAt c.index = .empty := by
  rw [h.allocationAt_eq hc] at hframe ⊢
  have hpast : ¬ rank < b.softLimit := by
    have hneither : (c.surface.visible || decide (rank < b.softLimit)) = false := hframe
    simpa [hhidden] using hneither
  simp [Bounds.grant, Bounds.demand_of_hidden_past hhidden (Nat.le_of_not_lt hpast), hhidden,
    hpast, Allocation.empty]

/-- Counting contenders is counting the stubs with a surface at their places. -/
theorem countP_serving_index (keeps : Nat → Bool) (stubs : List StubView) :
    ((Contender.serving stubs).countP fun c => keeps c.index)
      = stubs.zipIdx.countP fun s => s.1.surface.isSome && keeps s.2 := by
  rw [(Contender.serving_perm stubs).countP_eq, Contender.ofStubs, List.countP_filterMap]
  refine List.countP_congr fun s _ => ?_
  cases hs : s.1.surface <;> simp [hs]

/-- **Buffers follow rank.** For every list of stubs and all bounds with a total that fits a word
there is a plan. Of the stubs with a surface as many keep their frame as are visible, or as the
soft limit allows if there are so many and that is more. They are the front of the line: whoever
is served before one that keeps its frame keeps its own. The buffer that a stub draws to is kept
just by the visible ones, and a hidden one that keeps no frame is given nothing. -/
theorem exists_keeps_frames (b : Bounds) (hb : b.total < wordLimit) (stubs : List StubView) :
    ∃ p order, ofStubs b stubs = .ok p ∧ Contender.IsServing stubs order
      ∧ p.assignments.map Assignment.stub = stubs.map StubView.id
      ∧ (stubs.zipIdx.countP fun s => s.1.surface.isSome && (p.allocationAt s.2).frontbuffer)
          = max (stubs.countP fun s => s.surface.any SurfaceState.visible)
              (min b.softLimit (stubs.countP fun s => s.surface.isSome))
      ∧ (order.Pairwise fun c d => (p.allocationAt d.index).frontbuffer = true →
          (p.allocationAt c.index).frontbuffer = true)
      ∧ (∀ c ∈ order, (p.allocationAt c.index).backbuffer = c.surface.visible)
      ∧ ∀ c ∈ order, c.surface.visible = false →
          (p.allocationAt c.index).frontbuffer = false → p.allocationAt c.index = .empty := by
  obtain ⟨p, hp, hdiv⟩ := exists_divides b hb stubs
  refine ⟨p, Contender.serving stubs, hp, Contender.serving_isServing stubs, hdiv.numbers, ?_,
    ?_, fun c hc => ?_, fun c hc => ?_⟩
  · rw [← countP_serving_index fun index => (p.allocationAt index).frontbuffer,
      countP_eq_min_of_forall fun rank c hc => hdiv.frontbuffer_iff hc]
    have hvisible := countP_serving id stubs
    have hall := Contender.length_serving stubs
    have hle := List.countP_le_length (p := fun c : Contender => c.surface.visible)
      (l := Contender.serving stubs)
    simp only [id] at hvisible
    show _ = max (stubs.countP fun s => s.surface.any fun s => s.visible) _
    omega
  · rw [List.pairwise_iff_getElem]
    intro i j hi hj hij hframe
    rw [hdiv.frontbuffer_iff (List.getElem?_eq_getElem hj)] at hframe
    exact (hdiv.frontbuffer_iff (List.getElem?_eq_getElem hi)).2 (Nat.lt_trans hij hframe)
  · obtain ⟨rank, hrank⟩ := List.getElem?_of_mem hc
    exact hdiv.backbuffer_eq hrank
  · obtain ⟨rank, hrank⟩ := List.getElem?_of_mem hc
    exact hdiv.allocationAt_eq_empty hrank

/-- A hidden stub that was used last, a visible one, one without a surface, and two more hidden
stubs that were used at the same time. -/
def parade : List StubView :=
  [{ id := 1, surface := some ⟨1, false, 9⟩, requested := 2 },
    { id := 2, surface := some ⟨2, true, 1⟩, requested := 7 },
    { id := 3, shares := [1] },
    { id := 4, surface := some ⟨4, false, 5⟩, requested := 2 },
    { id := 5, surface := some ⟨5, false, 5⟩, requested := 2 }]

/-- With a soft limit of three, the visible stub and two of the hidden ones keep their frames. -/
theorem exists_keeps_frames_parade :
    crossing.total < wordLimit
      ∧ ∃ p, ofStubs crossing parade = .ok p
        ∧ (parade.zipIdx.countP fun s => s.1.surface.isSome && (p.allocationAt s.2).frontbuffer)
          = 3 := by
  have hfits : crossing.total < wordLimit := by decide
  obtain ⟨p, -, hp, -, -, hcount, -⟩ := exists_keeps_frames crossing hfits parade
  exact ⟨hfits, p, hp, hcount.trans (by decide)⟩

end Plan

end Compositor
