import Mathlib
import Compositor.Proofs.Geometry.Line
import Compositor.Proofs.Geometry.Pixels

/-!
# When a rectangle can be mapped

A rectangle is mapped by its corners: the result is the least rectangle on the grid around
their images. Whatever the transform does, each corner has an image of two values, and rounding
to the grid always answers. What can fail is the last step, where the sides of the result are
formed: along each axis the values have to *fit*. There has to be a number among them, and no
two of them may be farther apart on the grid than a side can be long.

This is exactly what is needed. Without a number the edges are left where the search for them
began, which is at opposite ends. And the edges are kept within the coordinates, but two
coordinates can be farther apart than the largest of them.
-/

namespace Compositor

namespace Grid

variable {a b : Float32} {values : List Float32}

/-- **Some values fit on the grid**: there is a number among them, and no two of them are too far
apart for the side of a rectangle. -/
def Fit (values : List Float32) : Prop :=
  (∃ v ∈ values, v.isNaN = false) ∧
    ∀ u ∈ values, ∀ v ∈ values, u.isNaN = false → v.isNaN = false →
      (ceil v).toInt - (floor u).toInt < 0x80000000

instance : Decidable (Fit values) := inferInstanceAs (Decidable (_ ∧ _))

/-- The numbers among some values. -/
def numbers (values : List Float32) : List Float32 := values.filter fun v => !v.isNaN

/-- The edge before some values. -/
def lowEdge (values : List Float32) : Int32 := floor (values.foldl least largest)

/-- The edge behind some values. -/
def highEdge (values : List Float32) : Int32 := ceil (values.foldl greatest smallest)

theorem mem_numbers {v : Float32} : v ∈ numbers values ↔ v ∈ values ∧ v.isNaN = false := by
  unfold numbers
  rw [List.mem_filter, Bool.not_eq_true']

/-! ## Edges -/

/-- The least of two numbers is rounded down to the least of what they are rounded to. -/
theorem toInt_floor_least (ha : a.isNaN = false) (hb : b.isNaN = false) :
    (least a b).isNaN = false ∧
      (floor (least a b)).toInt = min (floor a).toInt (floor b).toInt := by
  unfold least
  rw [ha, hb, if_neg Bool.false_ne_true, if_neg Bool.false_ne_true]
  split
  · next hlt =>
    have hnot : ¬ b < a := by
      rw [lt_iff_place ha hb] at hlt
      rw [lt_iff_place hb ha]
      exact hlt.le.not_gt
    exact ⟨ha, (min_eq_left (toInt_floor_le ha hb hnot)).symm⟩
  · next hnot => exact ⟨hb, (min_eq_right (toInt_floor_le hb ha hnot)).symm⟩

/-- The greatest of two numbers is rounded up to the greatest of what they are rounded to. -/
theorem toInt_ceil_greatest (ha : a.isNaN = false) (hb : b.isNaN = false) :
    (greatest a b).isNaN = false ∧
      (ceil (greatest a b)).toInt = max (ceil a).toInt (ceil b).toInt := by
  unfold greatest
  rw [ha, hb, if_neg Bool.false_ne_true, if_neg Bool.false_ne_true]
  split
  · next hlt =>
    have hnot : ¬ a < b := by
      rw [lt_iff_place hb ha] at hlt
      rw [lt_iff_place ha hb]
      exact hlt.le.not_gt
    exact ⟨ha, (max_eq_left (toInt_ceil_le hb ha hnot)).symm⟩
  · next hnot => exact ⟨hb, (max_eq_right (toInt_ceil_le ha hb hnot)).symm⟩

/-- Going through some values passes over those that are no number, if each step does and rounds
as it should. -/
theorem toInt_foldl {pick : Float32 → Float32 → Float32} {edge : Float32 → Int32}
    {choose : Int → Int → Int} (hskip : ∀ a b, a.isNaN = false → b.isNaN = true → pick a b = a)
    (hpick : ∀ a b, a.isNaN = false → b.isNaN = false →
      (pick a b).isNaN = false ∧ (edge (pick a b)).toInt = choose (edge a).toInt (edge b).toInt)
    (values : List Float32) (ha : a.isNaN = false) :
    (edge (values.foldl pick a)).toInt =
      ((numbers values).map fun v => (edge v).toInt).foldl choose (edge a).toInt := by
  induction values generalizing a with
  | nil => rfl
  | cons b rest ih =>
    rw [List.foldl_cons]
    cases hb : b.isNaN with
    | true =>
      have hnumbers : numbers (b :: rest) = numbers rest :=
        List.filter_cons_of_neg (by rw [hb]; decide)
      rw [hskip a b ha hb, hnumbers, ih ha]
    | false =>
      have hnumbers : numbers (b :: rest) = b :: numbers rest :=
        List.filter_cons_of_pos (by rw [hb]; decide)
      obtain ⟨hnumber, hedge⟩ := hpick a b ha hb
      rw [hnumbers, ih hnumber, hedge, List.map_cons, List.foldl_cons]

theorem toInt_lowEdge (values : List Float32) :
    (lowEdge values).toInt =
      ((numbers values).map fun v => (floor v).toInt).foldl min 0x7FFFFFFF := by
  have hlargest : largest.isNaN = false := by decide +kernel
  have hfloor : (floor largest).toInt = 0x7FFFFFFF := by decide +kernel
  rw [← hfloor]
  refine toInt_foldl (fun a b ha hb => ?_) (fun a b ha hb => toInt_floor_least ha hb) values
    hlargest
  unfold least
  rw [ha, hb, if_neg Bool.false_ne_true, if_pos rfl]

theorem toInt_highEdge (values : List Float32) :
    (highEdge values).toInt =
      ((numbers values).map fun v => (ceil v).toInt).foldl max (-0x80000000) := by
  have hsmallest : smallest.isNaN = false := by decide +kernel
  have hceil : (ceil smallest).toInt = -0x80000000 := by decide +kernel
  rw [← hceil]
  refine toInt_foldl (fun a b ha hb => ?_) (fun a b ha hb => toInt_ceil_greatest ha hb) values
    hsmallest
  unfold greatest
  rw [ha, hb, if_neg Bool.false_ne_true, if_pos rfl]

/-- The least of some integers that are not above a bound, where the search begins with it. -/
theorem foldl_min_bound {xs : List Int} {bound : Int} (hne : xs ≠ []) (hle : ∀ x ∈ xs, x ≤ bound) :
    xs.foldl min bound ∈ xs ∧ ∀ x ∈ xs, xs.foldl min bound ≤ x := by
  rw [List.foldl_min]
  cases hmin : xs.min? with
  | none => exact absurd (List.min?_eq_none_iff.1 hmin) hne
  | some x =>
    obtain ⟨hmem, hleast⟩ := List.min?_eq_some_iff.1 hmin
    rw [Option.getD_some, min_eq_right (hle x hmem)]
    exact ⟨hmem, hleast⟩

/-- The greatest of some integers that are not below a bound, where the search begins with it. -/
theorem foldl_max_bound {xs : List Int} {bound : Int} (hne : xs ≠ []) (hle : ∀ x ∈ xs, bound ≤ x) :
    xs.foldl max bound ∈ xs ∧ ∀ x ∈ xs, x ≤ xs.foldl max bound := by
  rw [List.foldl_max]
  cases hmax : xs.max? with
  | none => exact absurd (List.max?_eq_none_iff.1 hmax) hne
  | some x =>
    obtain ⟨hmem, hgreatest⟩ := List.max?_eq_some_iff.1 hmax
    rw [Option.getD_some, max_eq_right (hle x hmem)]
    exact ⟨hmem, hgreatest⟩

/-- **The edges around some values**, if there is a number among them: one of the numbers is
rounded to each, and all numbers lie between. -/
theorem edges_of_number (hsome : ∃ v ∈ values, v.isNaN = false) :
    (∃ u ∈ values, u.isNaN = false ∧ (lowEdge values).toInt = (floor u).toInt) ∧
      (∃ v ∈ values, v.isNaN = false ∧ (highEdge values).toInt = (ceil v).toInt) ∧
      ∀ v ∈ values, v.isNaN = false →
        (lowEdge values).toInt ≤ (floor v).toInt ∧ (ceil v).toInt ≤ (highEdge values).toInt := by
  have hne : numbers values ≠ [] := by
    obtain ⟨v, hv, hnumber⟩ := hsome
    exact List.ne_nil_of_mem (mem_numbers.2 ⟨hv, hnumber⟩)
  have hfloors : ∀ x ∈ (numbers values).map fun v => (floor v).toInt, x ≤ 0x7FFFFFFF := by
    intro x hx
    obtain ⟨v, -, rfl⟩ := List.mem_map.1 hx
    exact Int.le_of_lt_add_one (Int32.toInt_lt _)
  have hceils : ∀ x ∈ (numbers values).map fun v => (ceil v).toInt, -0x80000000 ≤ x := by
    intro x hx
    obtain ⟨v, -, rfl⟩ := List.mem_map.1 hx
    exact Int32.le_toInt _
  obtain ⟨hlow, hleast⟩ := foldl_min_bound (List.map_eq_nil_iff.not.2 hne) hfloors
  obtain ⟨hhigh, hgreatest⟩ := foldl_max_bound (List.map_eq_nil_iff.not.2 hne) hceils
  rw [← toInt_lowEdge] at hlow hleast
  rw [← toInt_highEdge] at hhigh hgreatest
  obtain ⟨u, hu, hequ⟩ := List.mem_map.1 hlow
  obtain ⟨v, hv, heqv⟩ := List.mem_map.1 hhigh
  rw [mem_numbers] at hu hv
  refine ⟨⟨u, hu.1, hu.2, hequ.symm⟩, ⟨v, hv.1, hv.2, heqv.symm⟩, fun w hw hnumber => ⟨?_, ?_⟩⟩
  · exact hleast _ (List.mem_map_of_mem (mem_numbers.2 ⟨hw, hnumber⟩))
  · exact hgreatest _ (List.mem_map_of_mem (mem_numbers.2 ⟨hw, hnumber⟩))

/-- Without a number the edges are at opposite ends. -/
theorem edges_of_none (hnone : ¬ ∃ v ∈ values, v.isNaN = false) :
    (lowEdge values).toInt = 0x7FFFFFFF ∧ (highEdge values).toInt = -0x80000000 := by
  have hnumbers : numbers values = [] :=
    List.eq_nil_iff_forall_not_mem.2 fun v hv => hnone ⟨v, mem_numbers.1 hv⟩
  rw [toInt_lowEdge, toInt_highEdge, hnumbers]
  exact ⟨rfl, rfl⟩

/-- **The side between the edges** can be formed exactly if the values fit, and then all numbers
among them lie along it. -/
theorem sub_edges (values : List Float32) :
    (Fit values → ∃ side, Coord.sub (highEdge values) (lowEdge values) = .ok side ∧
      ∀ v ∈ values, v.isNaN = false → (lowEdge values).toInt ≤ (floor v).toInt ∧
        (ceil v).toInt ≤ (lowEdge values).toInt + side.toInt) ∧
      (¬ Fit values → Coord.sub (highEdge values) (lowEdge values) = .error .subOverflow) := by
  by_cases hsome : ∃ v ∈ values, v.isNaN = false
  · obtain ⟨⟨u, hu, hnumberu, hlow⟩, ⟨v, hv, hnumberv, hhigh⟩, hbetween⟩ := edges_of_number hsome
    have horder : (lowEdge values).toInt ≤ (highEdge values).toInt := by
      obtain ⟨hlowv, -⟩ := hbetween v hv hnumberv
      exact hlowv.trans (hhigh ▸ toInt_floor_le_toInt_ceil hnumberv)
    constructor
    · intro hfit
      have hnear := hfit.2 u hu v hv hnumberu hnumberv
      obtain ⟨side, hside, heq⟩ := Coord.exists_sub (a := highEdge values) (b := lowEdge values)
        (by omega) (by omega)
      refine ⟨side, hside, fun w hw hnumber => ?_⟩
      obtain ⟨hlow', hhigh'⟩ := hbetween w hw hnumber
      exact ⟨hlow', by omega⟩
    · intro hfar
      refine Coord.sub_of_le (not_lt.1 fun hnear =>
        hfar ⟨hsome, fun w hw w' hw' hnumber hnumber' => ?_⟩)
      have hlow' := (hbetween w hw hnumber).1
      have hhigh' := (hbetween w' hw' hnumber').2
      omega
  · obtain ⟨hlow, hhigh⟩ := edges_of_none hsome
    refine ⟨fun hfit => absurd hfit.1 hsome, fun _ => ?_⟩
    rw [Int32.toInt_inj.1 (hlow.trans Int32.toInt_maxValue.symm),
      Int32.toInt_inj.1 (hhigh.trans Int32.toInt_minValue.symm)]
    decide

end Grid

namespace Rect

open Grid

/-- **The images of the corners** of a rectangle whose far edges are coordinates. -/
def images (r : Rect) (t : Transform) : List (Float32 × Float32) :=
  [t.project (ofCoord r.x) (ofCoord r.y), t.project (ofCoord (r.x + r.width)) (ofCoord r.y),
    t.project (ofCoord r.x) (ofCoord (r.y + r.height)),
    t.project (ofCoord (r.x + r.width)) (ofCoord (r.y + r.height))]

/-- **A rectangle can be mapped**: it is empty, or the images of its corners fit along either
axis. -/
def Maps (r : Rect) (t : Transform) : Prop :=
  r.isEmpty = false → Fit ((r.images t).map Prod.fst) ∧ Fit ((r.images t).map Prod.snd)

instance (r : Rect) (t : Transform) : Decidable (r.Maps t) :=
  inferInstanceAs (Decidable (_ → _))

/-- A rectangle lies around some images: along either axis it covers what numbers there are. -/
def Surrounds (m : Rect) (images : List (Float32 × Float32)) : Prop :=
  (∀ v ∈ images.map Prod.fst, v.isNaN = false →
      m.x.toInt ≤ (floor v).toInt ∧ (ceil v).toInt ≤ m.x.toInt + m.width.toInt) ∧
    ∀ v ∈ images.map Prod.snd, v.isNaN = false →
      m.y.toInt ≤ (floor v).toInt ∧ (ceil v).toInt ≤ m.y.toInt + m.height.toInt

variable {r : Rect}

/-- A far edge that is a coordinate is the sum without a carry. -/
theorem Edged.right_eq (h : r.Edged) : r.right = .ok (r.x + r.width) := by
  obtain ⟨⟨c, hc⟩, -⟩ := h
  rw [hc, ← Int32.ofInt_toInt (x := c), right_eq_ok.1 hc, Int32.ofInt_add, Int32.ofInt_toInt,
    Int32.ofInt_toInt]

theorem Edged.bottom_eq (h : r.Edged) : r.bottom = .ok (r.y + r.height) := by
  obtain ⟨-, c, hc⟩ := h
  rw [hc, ← Int32.ofInt_toInt (x := c), bottom_eq_ok.1 hc, Int32.ofInt_add, Int32.ofInt_toInt,
    Int32.ofInt_toInt]

/-- Mapping a rectangle that has a pixel, told by the edges around the images. -/
theorem mapEnclosing_eq (h : r.Edged) (t : Transform) (hpixel : r.isEmpty = false) :
    r.mapEnclosing t =
      let xs := (r.images t).map Prod.fst
      let ys := (r.images t).map Prod.snd
      (Coord.sub (highEdge xs) (lowEdge xs)).bind fun width =>
        (Coord.sub (highEdge ys) (lowEdge ys)).bind fun height =>
          .ok ⟨lowEdge xs, lowEdge ys, width, height⟩ := by
  unfold mapEnclosing
  rw [hpixel, if_neg Bool.false_ne_true, h.right_eq, h.bottom_eq]
  rfl

/-- **A rectangle is mapped exactly if it can be**, and the result lies around the images. -/
theorem mapEnclosing_cases (h : r.Edged) (t : Transform) :
    (r.Maps t → ∃ m, r.mapEnclosing t = .ok m ∧ (r.isEmpty = false → m.Surrounds (r.images t))) ∧
      (¬ r.Maps t → r.mapEnclosing t = .error .subOverflow) := by
  cases hpixel : r.isEmpty with
  | true =>
    have hempty : r.mapEnclosing t = .ok {} := by
      unfold mapEnclosing
      rw [hpixel]
      rfl
    refine ⟨fun _ => ⟨{}, hempty, fun hne => ?_⟩, fun hnot => ?_⟩
    · cases hne
    · exact absurd (fun hne => by rw [hpixel] at hne; cases hne) hnot
  | false =>
    obtain ⟨hwidth, hwidth'⟩ := sub_edges ((r.images t).map Prod.fst)
    obtain ⟨hheight, hheight'⟩ := sub_edges ((r.images t).map Prod.snd)
    rw [mapEnclosing_eq h t hpixel]
    constructor
    · intro hmaps
      obtain ⟨hfitx, hfity⟩ := hmaps hpixel
      obtain ⟨width, hw, hcoverx⟩ := hwidth hfitx
      obtain ⟨height, hh, hcovery⟩ := hheight hfity
      dsimp only
      rw [hw, hh]
      exact ⟨_, rfl, fun _ => ⟨hcoverx, hcovery⟩⟩
    · intro hnot
      dsimp only
      by_cases hfitx : Fit ((r.images t).map Prod.fst)
      · obtain ⟨width, hw, -⟩ := hwidth hfitx
        rw [hw, hheight' fun hfity => hnot fun _ => ⟨hfitx, hfity⟩]
        rfl
      · rw [hwidth' hfitx]
        rfl

end Rect

end Compositor
