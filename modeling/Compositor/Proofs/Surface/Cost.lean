import Mathlib.Algebra.BigOperators.Group.List.Basic
import Mathlib.Tactic.Ring
import Compositor.Surface.Memory
import Compositor.Tile

/-!
# What a frame costs

A pixel costs four bytes, and so a rectangle of pixels costs four bytes for each of them
(`pixelCost`). What a frame and a list of tiles cost is said here with that alone, from the
sizes of surfaces and tiles and not from the bytes that are counted for them.

The bytes of a frame are counted in one pass that keeps three running counts, each of
which may fault. What comes out is a plain sum over natural numbers, `frameCost`, if that
is a word, and a fault if it is not: no running count exceeds the sum, so none faults
before its time, and a fault in the middle is a fault of the whole. Since the sum does not
depend on the order of the surfaces, neither does the answer.
-/

namespace Compositor

namespace Word

/-- An exact count as a word, if it is one. -/
def exact (n : Nat) : Except Fault Nat :=
  if n < wordLimit then .ok n else .error .addOverflow

theorem add_eq_exact (a b : Nat) : add a b = exact (a + b) := rfl

theorem exact_of_lt {n : Nat} (h : n < wordLimit) : exact n = .ok n := if_pos h

theorem exact_of_le {n : Nat} (h : wordLimit ≤ n) : exact n = .error .addOverflow :=
  if_neg (Nat.not_lt.2 h)

/-- A further count on top of a word: the word has no say in whether the result is one, as it
is no larger than that. -/
theorem exact_bind_add (a b : Nat) : (exact a >>= fun n => add n b) = exact (a + b) := by
  rcases Nat.lt_or_ge a wordLimit with ha | ha
  · rw [exact_of_lt ha]
    exact add_eq_exact a b
  · rw [exact_of_le ha, exact_of_le (Nat.le_add_right_of_le ha)]
    rfl

/-- Counting on from a word is counting on to the exact sum. -/
theorem exact_bind_foldlM (a : Nat) (xs : List Nat) :
    (exact a >>= fun n => xs.foldlM add n) = exact (a + xs.sum) := by
  induction xs generalizing a with
  | nil =>
    simp only [List.foldlM_nil, List.sum_nil, Nat.add_zero]
    exact bind_pure (exact a)
  | cons x xs ih =>
    calc (exact a >>= fun n => (x :: xs).foldlM add n)
        = ((exact a >>= fun n => add n x) >>= fun n => xs.foldlM add n) := by
          simp only [List.foldlM_cons, bind_assoc]
      _ = exact (a + x + xs.sum) := by rw [exact_bind_add, ih]
      _ = exact (a + (x :: xs).sum) := by rw [List.sum_cons, Nat.add_assoc]

/-- **A sum is exact or a fault.** -/
theorem sum_eq_exact (xs : List Nat) : sum xs = exact xs.sum := by
  have h := exact_bind_foldlM 0 xs
  rwa [Nat.zero_add] at h

end Word

/-! ## The cost of pixels -/

/-- **The cost of a rectangle of pixels**: four bytes for each, and nothing if a side is not
positive. -/
def pixelCost (width height : Int32) : Nat :=
  if 0 < width.toInt ∧ 0 < height.toInt then 4 * width.toInt.toNat * height.toInt.toNat else 0

/-- The bytes of a texture are the cost of its pixels. -/
theorem textureBytes_eq (width height : Int32) :
    textureBytes width height = pixelCost width height := by
  unfold textureBytes pixelCost
  simp only [Bool.or_eq_true, decide_eq_true_iff, Int32.le_iff_toInt_le, Int32.toInt_zero]
  split
  · rw [if_neg (by omega)]
  · have hwidth : width.toInt.natAbs = width.toInt.toNat := by omega
    have hheight : height.toInt.natAbs = height.toInt.toNat := by omega
    rw [if_pos (by omega), hwidth, hheight]
    ring

/-- The cost of pixels in integers. -/
theorem pixelCost_eq (width height : Int32) :
    (pixelCost width height : Int) =
      if 0 < width.toInt ∧ 0 < height.toInt then 4 * width.toInt * height.toInt else 0 := by
  unfold pixelCost
  split
  · next hsides =>
    rw [Int.natCast_mul, Int.natCast_mul, Int.toNat_of_nonneg hsides.1.le,
      Int.toNat_of_nonneg hsides.2.le, Nat.cast_ofNat]
  · rfl

/-- The cost of the pixels of a surface. -/
def surfaceCost (s : RenderSurface) : Nat := pixelCost s.content.width s.content.height

/-- The cost of the pixels of a tile. -/
def tileCost (q : TileQuad) : Nat := pixelCost q.size.1 q.size.2

theorem bytes_eq_surfaceCost (s : RenderSurface) : s.bytes = surfaceCost s :=
  textureBytes_eq s.content.width s.content.height

theorem bytes_eq_tileCost (q : TileQuad) : q.bytes = tileCost q :=
  textureBytes_eq q.size.1 q.size.2

/-! ## The cost as a sum -/

/-- The cost of a list of surfaces. -/
def contentsCost (surfaces : List RenderSurface) : Nat := (surfaces.map surfaceCost).sum

/-- The surfaces with background filters. -/
def filtered (surfaces : List RenderSurface) : List RenderSurface :=
  surfaces.filter RenderSurface.hasBackgroundFilters

/-- The cost of the largest of a list of surfaces, none if the list is empty. -/
def largestCost (surfaces : List RenderSurface) : Nat :=
  (surfaces.map surfaceCost).foldr max 0

/-- **The cost of a frame**, as a natural number: that of every surface but the root, and
if any of these has background filters, that of the largest that has, and of one copy of the
viewport. -/
def frameCost (surfaces : List RenderSurface) (width height : Int32) : Nat :=
  let textured := surfaces.drop 1
  contentsCost textured + largestCost (filtered textured) +
    if filtered textured = [] then 0 else pixelCost width height

@[simp] theorem contentsCost_cons (s : RenderSurface) (l : List RenderSurface) :
    contentsCost (s :: l) = surfaceCost s + contentsCost l :=
  List.sum_cons

@[simp] theorem largestCost_cons (s : RenderSurface) (l : List RenderSurface) :
    largestCost (s :: l) = max (surfaceCost s) (largestCost l) :=
  rfl

theorem filtered_cons (s : RenderSurface) (l : List RenderSurface) :
    filtered (s :: l) = if s.hasBackgroundFilters then s :: filtered l else filtered l :=
  List.filter_cons

/-- The cost does not depend on the order of the surfaces behind the root. -/
theorem frameCost_perm (root : RenderSurface) {l l' : List RenderSurface} (h : l.Perm l')
    (width height : Int32) :
    frameCost (root :: l) width height = frameCost (root :: l') width height := by
  have hcontents : contentsCost l = contentsCost l' := (h.map _).sum_eq
  have hfiltered : (filtered l).Perm (filtered l') := h.filter _
  have hlargest : largestCost (filtered l) = largestCost (filtered l') :=
    (hfiltered.map _).foldr_eq 0
  have hnone : filtered l = [] ↔ filtered l' = [] := by
    rw [← List.length_eq_zero_iff, ← List.length_eq_zero_iff, hfiltered.length_eq]
  simp only [frameCost, List.drop_succ_cons, List.drop_zero, hcontents, hlargest, hnone]

/-! ## The running counts -/

namespace FrameMemory

/-- One more surface, counted in exact numbers. -/
def count (viewport : Nat) (m : FrameMemory) (s : RenderSurface) : FrameMemory where
  readback := if s.hasBackgroundFilters ∧ m.readback = 0 then viewport else m.readback
  background := if s.hasBackgroundFilters then max m.background (surfaceCost s) else m.background
  contents := m.contents + surfaceCost s

/-- A surface is counted exactly, or the count of the contents is a fault. -/
theorem addSurface_eq (viewport : Nat) (m : FrameMemory) (s : RenderSurface) :
    m.addSurface viewport s =
      if m.contents + surfaceCost s < wordLimit then .ok (m.count viewport s)
      else .error .addOverflow := by
  unfold addSurface count Word.add
  rw [bytes_eq_surfaceCost]
  split
  · cases s.hasBackgroundFilters with
    | true => simp only [true_and, if_true]; rfl
    | false => simp only [Bool.false_eq_true, false_and, if_false]; rfl
  · rfl

/-- **The pass over the surfaces** counts them exactly, or it is a fault: the count of the
contents only grows, so it is too large in the end if it ever is. -/
theorem foldlM_addSurface (viewport : Nat) (l : List RenderSurface) {m : FrameMemory}
    (hm : m.contents < wordLimit) :
    l.foldlM (addSurface viewport) m =
      if m.contents + contentsCost l < wordLimit then .ok (l.foldl (count viewport) m)
      else .error .addOverflow := by
  induction l generalizing m with
  | nil => exact (if_pos hm).symm
  | cons s l ih =>
    rw [List.foldlM_cons, addSurface_eq, contentsCost_cons, ← Nat.add_assoc]
    by_cases hs : m.contents + surfaceCost s < wordLimit
    · rw [if_pos hs]
      exact ih hs
    · rw [if_neg hs, if_neg (by omega)]
      rfl

/-- What the exact counts come to. A viewport that has no bytes is asked for its copy again
and again, and that makes no difference. -/
theorem foldl_count (viewport : Nat) (l : List RenderSurface) (m : FrameMemory) :
    l.foldl (count viewport) m =
      { readback := if filtered l ≠ [] ∧ m.readback = 0 then viewport else m.readback
        background := max m.background (largestCost (filtered l))
        contents := m.contents + contentsCost l } := by
  induction l generalizing m with
  | nil => simp [filtered, largestCost, contentsCost]
  | cons s l ih =>
    rw [List.foldl_cons, ih, filtered_cons, contentsCost_cons]
    cases hfilters : s.hasBackgroundFilters with
    | true =>
      simp only [count, hfilters, true_and, if_true, ne_eq, reduceCtorEq, not_false_eq_true,
        largestCost_cons, Nat.max_assoc, Nat.add_assoc, mk.injEq, and_true]
      by_cases hnone : m.readback = 0 <;> simp [hnone]
    | false =>
      simp [count, hfilters, Nat.add_assoc]

/-- The bytes counted, all together, are exact or a fault. -/
theorem total_eq_exact (m : FrameMemory) :
    m.total = Word.exact (m.readback + m.background + m.contents) :=
  Word.exact_bind_add (m.readback + m.background) m.contents

end FrameMemory

/-! ## The memory of a frame -/

/-- **The memory of a frame is its cost, or a fault if that is no word.** -/
theorem surfaceMemory_eq_exact (surfaces : List RenderSurface) (width height : Int32) :
    surfaceMemory surfaces width height = Word.exact (frameCost surfaces width height) := by
  unfold surfaceMemory frameCost
  rw [FrameMemory.foldlM_addSurface _ _ (by decide), FrameMemory.foldl_count, textureBytes_eq]
  generalize surfaces.drop 1 = textured
  simp only [Nat.zero_add, Nat.zero_max, and_true, ne_eq, ite_not]
  by_cases hcontents : contentsCost textured < wordLimit
  · rw [if_pos hcontents]
    change FrameMemory.total _ = _
    rw [FrameMemory.total_eq_exact]
    congr 1
    dsimp only
    omega
  · rw [if_neg hcontents, Word.exact_of_le (by omega)]
    rfl

/-- The memory of a list of tiles is their cost, or a fault if that is no word. -/
theorem tileMemory_eq_exact (tiles : List TileQuad) :
    tileMemory tiles = Word.exact (tiles.map tileCost).sum := by
  unfold tileMemory
  rw [Word.sum_eq_exact, List.map_congr_left fun q _ => bytes_eq_tileCost q]

/-- **Memory is counted exactly or not at all.** A rectangle of pixels costs four bytes for each,
which always is a word, and that is what the texture behind it takes. The memory of a frame is
the cost of the frame if that is a word and a fault if not, and so does not depend on the order
of the surfaces behind the root; the memory of a list of tiles is what these cost by their sizes
if the sum is a word and a fault if not. -/
theorem memory_exact_or_fault (surfaces : List RenderSurface) (tiles : List TileQuad)
    (width height : Int32) :
    (∀ w h : Int32, textureBytes w h = pixelCost w h ∧ pixelCost w h < 2 ^ 64 ∧
      (pixelCost w h : Int) =
        if 0 < w.toInt ∧ 0 < h.toInt then 4 * w.toInt * h.toInt else 0) ∧
    surfaceMemory surfaces width height =
      (if frameCost surfaces width height < 2 ^ 64
        then .ok (frameCost surfaces width height) else .error .addOverflow) ∧
    (∀ (root : RenderSurface) (l l' : List RenderSurface), l.Perm l' →
      surfaceMemory (root :: l) width height = surfaceMemory (root :: l') width height) ∧
    tileMemory tiles =
      (if (tiles.map fun q => pixelCost q.size.1 q.size.2).sum < 2 ^ 64
        then .ok (tiles.map fun q => pixelCost q.size.1 q.size.2).sum
        else .error .addOverflow) := by
  refine ⟨fun w h => ⟨textureBytes_eq w h, ?_, pixelCost_eq w h⟩,
    surfaceMemory_eq_exact surfaces width height, fun root l l' h => ?_,
    tileMemory_eq_exact tiles⟩
  · rw [← textureBytes_eq]
    exact textureBytes_lt w h
  · rw [surfaceMemory_eq_exact, surfaceMemory_eq_exact, frameCost_perm root h]

/-- A tile of a size. -/
def tileOfSize (width height : Int32) : TileQuad where
  shared := .ofVisible {} Transform.one true
  rect := {}
  opaqueRect := {}
  resource := 0
  offset := (0, 0)
  size := (width, height)

/-- Behind the root, a small surface and a large one with background filters: in either order
the two, the large one once more, and a copy of the viewport. Of three tiles the one without a
pixel costs nothing; two of the largest tiles that there can be cost more than a word holds. -/
theorem memory_exact_or_fault_swapped :
    let root : RenderSurface := { id := 1, content := .ofSize 100 100 }
    let small : RenderSurface :=
      { id := 2, content := .ofSize 10 20, hasBackgroundFilters := true }
    let large : RenderSurface :=
      { id := 3, content := .ofSize 30 40, hasBackgroundFilters := true }
    [small, large].Perm [large, small] ∧
      surfaceMemory [root, small, large] 100 100 = .ok (800 + 4800 + 4800 + 40000) ∧
      surfaceMemory [root, large, small] 100 100 = .ok (800 + 4800 + 4800 + 40000) ∧
      tileMemory [tileOfSize 256 256, tileOfSize (-5) 256, tileOfSize 10 20]
        = .ok (262144 + 0 + 800) ∧
      tileMemory [tileOfSize 0x7FFFFFFF 0x7FFFFFFF, tileOfSize 0x7FFFFFFF 0x7FFFFFFF]
        = .error .addOverflow := by
  intro root small large
  have hswap : [small, large].Perm [large, small] := .swap large small []
  obtain ⟨-, hexact, hperm, htiles⟩ :=
    memory_exact_or_fault [root, small, large]
      [tileOfSize 256 256, tileOfSize (-5) 256, tileOfSize 10 20] 100 100
  obtain ⟨-, -, -, hlargest⟩ :=
    memory_exact_or_fault []
      [tileOfSize 0x7FFFFFFF 0x7FFFFFFF, tileOfSize 0x7FFFFFFF 0x7FFFFFFF] 0 0
  have hcost : frameCost [root, small, large] 100 100 = 800 + 4800 + 4800 + 40000 := by decide
  rw [hcost, if_pos (by decide)] at hexact
  refine ⟨hswap, hexact, (hperm root _ _ hswap).symm.trans hexact, ?_, ?_⟩
  · exact htiles.trans (by decide)
  · exact hlargest.trans (by decide)

end Compositor
