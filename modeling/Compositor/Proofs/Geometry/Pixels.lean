import Mathlib.Data.Set.Basic
import Compositor.Geometry.Rect

/-!
# The pixels of a rectangle

A rectangle stands for a set of whole points: those from its corner up to, but without,
its far edges. One with a side that is not positive stands for no point, wherever its
corner is. The operations on rectangles are those of the sets:

* the common part is the intersection, and it is the empty rectangle at the origin when
  nothing is common;
* containment is inclusion, of a rectangle that has a pixel;
* the union is the least rectangle around both, as a set.

The far edges of both operands have to be coordinates. That is all the common part and
containment need: the sides of a common part are no longer than those of its operands. The
sides of a union can be too long, and then there is none.
-/

namespace Compositor

namespace Coord

theorem toInt_max (a b : Int32) : (max a b).toInt = max a.toInt b.toInt := by
  change (if a ≤ b then b else a).toInt = _
  split <;> simp_all only [Int32.le_iff_toInt_le] <;> omega

theorem toInt_min (a b : Int32) : (min a b).toInt = min a.toInt b.toInt := by
  change (if a ≤ b then a else b).toInt = _
  split <;> simp_all only [Int32.le_iff_toInt_le] <;> omega

/-- A difference that is in range can be formed. -/
theorem exists_sub {a b : Int32} (hlow : -0x80000000 ≤ a.toInt - b.toInt)
    (hhigh : a.toInt - b.toInt < 0x80000000) :
    ∃ c : Int32, sub a b = .ok c ∧ c.toInt = a.toInt - b.toInt := by
  have hc : (Int32.ofInt (a.toInt - b.toInt)).toInt = a.toInt - b.toInt :=
    Int32.toInt_ofInt_of_le hlow hhigh
  exact ⟨_, sub_eq_ok.2 hc, hc⟩

/-- A difference that is too large is not formed. -/
theorem sub_of_le {a b : Int32} (h : 0x80000000 ≤ a.toInt - b.toInt) :
    sub a b = .error .subOverflow := by
  unfold sub ofInt?
  rw [if_neg (by omega)]

end Coord

namespace Rect

/-- The pixels of a rectangle. -/
def pixels (r : Rect) : Set (Int × Int) :=
  {p | (r.x.toInt ≤ p.1 ∧ p.1 < r.x.toInt + r.width.toInt) ∧
    r.y.toInt ≤ p.2 ∧ p.2 < r.y.toInt + r.height.toInt}

/-- Both far edges are coordinates. -/
def Edged (r : Rect) : Prop :=
  (∃ right, r.right = .ok right) ∧ ∃ bottom, r.bottom = .ok bottom

/-- The least rectangle around both has sides that are coordinates: no two pixels of the two
are farther apart than that, in either direction. -/
def Near (a b : Rect) : Prop :=
  ∀ p ∈ a.pixels ∪ b.pixels, ∀ q ∈ a.pixels ∪ b.pixels,
    p.1 - q.1 + 1 < 0x80000000 ∧ p.2 - q.2 + 1 < 0x80000000

variable {a b r : Rect}

theorem mem_pixels {p : Int × Int} :
    p ∈ r.pixels ↔ (r.x.toInt ≤ p.1 ∧ p.1 < r.x.toInt + r.width.toInt) ∧
      r.y.toInt ≤ p.2 ∧ p.2 < r.y.toInt + r.height.toInt :=
  Iff.rfl

theorem right_eq_ok {c : Int32} : r.right = .ok c ↔ c.toInt = r.x.toInt + r.width.toInt :=
  Coord.add_eq_ok

theorem bottom_eq_ok {c : Int32} : r.bottom = .ok c ↔ c.toInt = r.y.toInt + r.height.toInt :=
  Coord.add_eq_ok

/-! ## Empty rectangles -/

theorem isEmpty_eq_false : r.isEmpty = false ↔ 0 < r.width.toInt ∧ 0 < r.height.toInt := by
  simp only [isEmpty, Bool.or_eq_false_iff, decide_eq_false_iff_not, Int32.le_iff_toInt_le,
    Int32.toInt_zero, Int.not_le]

theorem isEmpty_eq_true : r.isEmpty = true ↔ r.width.toInt ≤ 0 ∨ r.height.toInt ≤ 0 := by
  simp only [isEmpty, Bool.or_eq_true, decide_eq_true_iff, Int32.le_iff_toInt_le,
    Int32.toInt_zero]

/-- A rectangle that is not empty has its corner, and the pixel opposite to it. -/
theorem corners_mem (h : r.isEmpty = false) :
    (r.x.toInt, r.y.toInt) ∈ r.pixels ∧
      (r.x.toInt + r.width.toInt - 1, r.y.toInt + r.height.toInt - 1) ∈ r.pixels := by
  have := isEmpty_eq_false.1 h
  simp only [mem_pixels]
  omega

theorem not_mem_of_isEmpty (h : r.isEmpty = true) (p : Int × Int) : p ∉ r.pixels := by
  have := isEmpty_eq_true.1 h
  simp only [mem_pixels]
  omega

/-- **A rectangle is not empty exactly if it has a pixel.** -/
theorem pixels_nonempty : r.pixels.Nonempty ↔ r.isEmpty = false := by
  refine ⟨fun ⟨p, hp⟩ => ?_, fun h => ⟨_, (corners_mem h).1⟩⟩
  cases h : r.isEmpty with
  | false => rfl
  | true => exact (not_mem_of_isEmpty h p hp).elim

theorem pixels_eq_empty (h : r.isEmpty = true) : r.pixels = ∅ :=
  Set.eq_empty_of_forall_notMem (not_mem_of_isEmpty h)

theorem pixels_default : ({} : Rect).pixels = ∅ := pixels_eq_empty (by decide)

/-- A rectangle with a pixel is covered by one that its two corners are in: inclusion is a
comparison of edges. -/
theorem pixels_subset (h : r.isEmpty = false) {s : Rect} :
    r.pixels ⊆ s.pixels ↔
      (s.x.toInt ≤ r.x.toInt ∧
        r.x.toInt + r.width.toInt ≤ s.x.toInt + s.width.toInt) ∧
      s.y.toInt ≤ r.y.toInt ∧ r.y.toInt + r.height.toInt ≤ s.y.toInt + s.height.toInt := by
  constructor
  · intro hsub
    have hnear := hsub (corners_mem h).1
    have hfar := hsub (corners_mem h).2
    simp only [mem_pixels] at hnear hfar
    omega
  · intro hedges p hp
    simp only [mem_pixels] at hp ⊢
    omega

/-- Rectangles with the same four edges are the same. -/
theorem eq_of_edges (hx : a.x.toInt = b.x.toInt) (hy : a.y.toInt = b.y.toInt)
    (hw : a.x.toInt + a.width.toInt = b.x.toInt + b.width.toInt)
    (hh : a.y.toInt + a.height.toInt = b.y.toInt + b.height.toInt) : a = b := by
  cases a
  cases b
  simp only [mk.injEq, ← Int32.toInt_inj] at hx hy hw hh ⊢
  omega

/-! ## The common part -/

/-- The rectangle between the inner edges of two: what is common to them, if anything is. -/
structure Between (a b i : Rect) : Prop where
  left : i.x.toInt = max a.x.toInt b.x.toInt
  top : i.y.toInt = max a.y.toInt b.y.toInt
  right : i.x.toInt + i.width.toInt =
    min (a.x.toInt + a.width.toInt) (b.x.toInt + b.width.toInt)
  bottom : i.y.toInt + i.height.toInt =
    min (a.y.toInt + a.height.toInt) (b.y.toInt + b.height.toInt)

theorem Between.pixels_eq {i : Rect} (h : Between a b i) : i.pixels = a.pixels ∩ b.pixels := by
  obtain ⟨hleft, htop, hright, hbottom⟩ := h
  ext p
  simp only [Set.mem_inter_iff, mem_pixels]
  omega

/-- The common part is the rectangle between the inner edges. If these leave no room there is
no common pixel, and the common part is the empty rectangle at the origin. -/
theorem intersect_eq (ha : a.Edged) (hb : b.Edged) :
    ∃ i, a.intersect b = .ok i ∧
      (i = {} ∧ a.pixels ∩ b.pixels = ∅ ∨ i.isEmpty = false ∧ Between a b i) := by
  obtain ⟨⟨ra, hra⟩, ⟨ba, hba⟩⟩ := ha
  obtain ⟨⟨rb, hrb⟩, ⟨bb, hbb⟩⟩ := hb
  unfold intersect
  simp only [hra, hba, hrb, hbb, bind, Except.bind, pure, Except.pure, Bool.or_eq_true,
    decide_eq_true_iff, Int32.le_iff_toInt_le]
  have hright := Coord.toInt_min ra rb
  have hbottom := Coord.toInt_min ba bb
  have hleft := Coord.toInt_max a.x b.x
  have htop := Coord.toInt_max a.y b.y
  rw [right_eq_ok.1 hra, right_eq_ok.1 hrb] at hright
  rw [bottom_eq_ok.1 hba, bottom_eq_ok.1 hbb] at hbottom
  split
  · next hroom =>
    refine ⟨_, rfl, .inl ⟨rfl, Set.eq_empty_of_forall_notMem fun p hp => ?_⟩⟩
    simp only [Set.mem_inter_iff, mem_pixels] at hp
    omega
  · next hroom =>
    -- Neither side is longer than the one of `a`, which is a coordinate.
    have hwidth := Int32.toInt_lt a.width
    have hheight := Int32.toInt_lt a.height
    obtain ⟨w, hw, hweq⟩ := Coord.exists_sub (a := min ra rb) (b := max a.x b.x)
      (by omega) (by omega)
    obtain ⟨h, hh, hheq⟩ := Coord.exists_sub (a := min ba bb) (b := max a.y b.y)
      (by omega) (by omega)
    rw [hw, hh]
    refine ⟨_, rfl, .inr ⟨isEmpty_eq_false.2 ⟨?_, ?_⟩, hleft, htop, ?_, ?_⟩⟩ <;>
      dsimp only <;> omega

/-- **The common part is the intersection**, and the empty rectangle at the origin if that is
empty. -/
theorem intersect_pixels (ha : a.Edged) (hb : b.Edged) :
    ∃ i, a.intersect b = .ok i ∧ i.pixels = a.pixels ∩ b.pixels ∧
      (a.pixels ∩ b.pixels = ∅ → i = {}) := by
  obtain ⟨i, hi, ⟨rfl, hnone⟩ | ⟨hpixel, hbetween⟩⟩ := intersect_eq ha hb
  · exact ⟨_, hi, pixels_default.trans hnone.symm, fun _ => rfl⟩
  · refine ⟨i, hi, hbetween.pixels_eq, fun hnone => ?_⟩
    have hsome := pixels_nonempty.2 hpixel
    rw [hbetween.pixels_eq, hnone] at hsome
    exact (Set.not_nonempty_empty hsome).elim

/-- A rectangle with a pixel is its common part with another exactly if that covers it. -/
theorem intersect_eq_right (ha : a.Edged) (hb : b.Edged) (hpixel : b.pixels.Nonempty) :
    a.intersect b = .ok b ↔ b.pixels ⊆ a.pixels := by
  obtain ⟨i, hi, hcases⟩ := intersect_eq ha hb
  rw [hi, Except.ok.injEq]
  rcases hcases with ⟨rfl, hnone⟩ | ⟨-, hbetween⟩
  · constructor
    · rintro rfl
      rw [pixels_default] at hpixel
      exact (Set.not_nonempty_empty hpixel).elim
    · intro hsub
      rw [Set.inter_eq_self_of_subset_right hsub] at hnone
      rw [hnone] at hpixel
      exact (Set.not_nonempty_empty hpixel).elim
  · constructor
    · rintro rfl
      exact hbetween.pixels_eq ▸ Set.inter_subset_left
    · intro hsub
      have hedges := (pixels_subset (pixels_nonempty.1 hpixel)).1 hsub
      obtain ⟨hleft, htop, hright, hbottom⟩ := hbetween
      exact eq_of_edges (by omega) (by omega) (by omega) (by omega)

/-! ## Containment -/

/-- **Containment is inclusion** of a rectangle that has a pixel. -/
theorem contains_eq (ha : a.Edged) (hb : b.Edged) :
    ∃ answer, a.contains b = .ok answer ∧
      (answer = true ↔ b.pixels.Nonempty ∧ b.pixels ⊆ a.pixels) := by
  obtain ⟨⟨ra, hra⟩, ⟨ba, hba⟩⟩ := ha
  obtain ⟨⟨rb, hrb⟩, ⟨bb, hbb⟩⟩ := hb
  have heqs := And.intro (And.intro (right_eq_ok.1 hra) (right_eq_ok.1 hrb))
    (And.intro (bottom_eq_ok.1 hba) (bottom_eq_ok.1 hbb))
  unfold contains
  simp only [hra, hba, hrb, hbb, bind, Except.bind, pure, Except.pure, Bool.or_eq_true,
    decide_eq_true_iff, Int32.lt_iff_toInt_lt, Int32.le_iff_toInt_le]
  cases hempty : b.isEmpty with
  | true =>
    refine ⟨false, by simp only [true_or, if_true], ?_⟩
    simp only [pixels_nonempty, hempty, Bool.true_eq_false, Bool.false_eq_true, false_and]
  | false =>
    simp only [pixels_nonempty, pixels_subset hempty, hempty, Bool.false_eq_true, false_or,
      true_and]
    split
    · exact ⟨false, rfl, by simp only [Bool.false_eq_true, false_iff]; omega⟩
    · split
      · exact ⟨false, rfl, by simp only [Bool.false_eq_true, false_iff]; omega⟩
      · refine ⟨_, rfl, ?_⟩
        rw [decide_eq_true_iff]
        omega

/-! ## The union -/

/-- The rectangle between the outer edges of two. -/
structure Around (a b u : Rect) : Prop where
  left : u.x.toInt = min a.x.toInt b.x.toInt
  top : u.y.toInt = min a.y.toInt b.y.toInt
  right : u.x.toInt + u.width.toInt =
    max (a.x.toInt + a.width.toInt) (b.x.toInt + b.width.toInt)
  bottom : u.y.toInt + u.height.toInt =
    max (a.y.toInt + a.height.toInt) (b.y.toInt + b.height.toInt)

/-- Around two rectangles that have a pixel the least rectangle is the one between the outer
edges. -/
theorem Around.least {u : Rect} (ha : a.isEmpty = false) (hb : b.isEmpty = false)
    (h : Around a b u) (r : Rect) :
    u.pixels ⊆ r.pixels ↔ a.pixels ⊆ r.pixels ∧ b.pixels ⊆ r.pixels := by
  obtain ⟨hleft, htop, hright, hbottom⟩ := h
  have hpa := isEmpty_eq_false.1 ha
  have hpb := isEmpty_eq_false.1 hb
  have hu : u.isEmpty = false := isEmpty_eq_false.2 (by omega)
  rw [pixels_subset hu, pixels_subset ha, pixels_subset hb]
  omega

/-- Two rectangles that have a pixel are near if the outer edges are no farther apart than the
sides of a rectangle can be. -/
theorem near_iff (ha : a.isEmpty = false) (hb : b.isEmpty = false) :
    Near a b ↔
      max (a.x.toInt + a.width.toInt) (b.x.toInt + b.width.toInt) - min a.x.toInt b.x.toInt
          < 0x80000000 ∧
        max (a.y.toInt + a.height.toInt) (b.y.toInt + b.height.toInt) - min a.y.toInt b.y.toInt
          < 0x80000000 := by
  constructor
  · intro hnear
    obtain ⟨hal, har⟩ := corners_mem ha
    obtain ⟨hbl, hbr⟩ := corners_mem hb
    have haa := hnear _ (.inl har) _ (.inl hal)
    have hab := hnear _ (.inl har) _ (.inr hbl)
    have hba := hnear _ (.inr hbr) _ (.inl hal)
    have hbb := hnear _ (.inr hbr) _ (.inr hbl)
    dsimp only at haa hab hba hbb
    omega
  · intro hfits p hp q hq
    simp only [Set.mem_union, mem_pixels] at hp hq
    omega

/-- The pixels of one rectangle are near each other, so an empty one is near to every one. -/
theorem near_of_isEmpty (h : a.isEmpty = true ∨ b.isEmpty = true) : Near a b := by
  have hself (r : Rect) : ∀ p ∈ r.pixels, ∀ q ∈ r.pixels,
      p.1 - q.1 + 1 < 0x80000000 ∧ p.2 - q.2 + 1 < 0x80000000 := by
    intro p hp q hq
    have hwidth := Int32.toInt_lt r.width
    have hheight := Int32.toInt_lt r.height
    simp only [mem_pixels] at hp hq
    omega
  unfold Near
  rcases h with ha | hb
  · rw [pixels_eq_empty ha, Set.empty_union]
    exact hself b
  · rw [pixels_eq_empty hb, Set.union_empty]
    exact hself a

theorem union_of_isEmpty_left (h : a.isEmpty = true) : a.union b = .ok b := by
  unfold union
  rw [if_pos h]
  rfl

theorem union_of_isEmpty_right (ha : a.isEmpty = false) (h : b.isEmpty = true) :
    a.union b = .ok a := by
  unfold union
  rw [if_neg (by rw [ha]; exact Bool.false_ne_true), if_pos h]
  rfl

/-- The union of two rectangles that have a pixel is the one between the outer edges if its
sides are coordinates, and a fault if not. -/
theorem union_eq (ha : a.Edged) (hb : b.Edged) (hpa : a.isEmpty = false)
    (hpb : b.isEmpty = false) :
    (Near a b → ∃ u, a.union b = .ok u ∧ Around a b u) ∧
      (¬ Near a b → a.union b = .error .subOverflow) := by
  obtain ⟨⟨ra, hra⟩, ⟨ba, hba⟩⟩ := ha
  obtain ⟨⟨rb, hrb⟩, ⟨bb, hbb⟩⟩ := hb
  unfold union
  simp only [hra, hba, hrb, hbb, hpa, hpb, bind, Except.bind, pure, Except.pure,
    Bool.false_eq_true, if_false, near_iff hpa hpb]
  have hright := Coord.toInt_max ra rb
  have hbottom := Coord.toInt_max ba bb
  have hleft := Coord.toInt_min a.x b.x
  have htop := Coord.toInt_min a.y b.y
  rw [right_eq_ok.1 hra, right_eq_ok.1 hrb] at hright
  rw [bottom_eq_ok.1 hba, bottom_eq_ok.1 hbb] at hbottom
  have hpixelA := isEmpty_eq_false.1 hpa
  constructor
  · rintro ⟨hwidth, hheight⟩
    obtain ⟨w, hw, hweq⟩ := Coord.exists_sub (a := max ra rb) (b := min a.x b.x)
      (by omega) (by omega)
    obtain ⟨h, hh, hheq⟩ := Coord.exists_sub (a := max ba bb) (b := min a.y b.y)
      (by omega) (by omega)
    rw [hw, hh]
    refine ⟨_, rfl, hleft, htop, ?_, ?_⟩ <;> dsimp only <;> omega
  · intro hfar
    by_cases hwidth : 0x80000000 ≤ (max ra rb).toInt - (min a.x b.x).toInt
    · rw [Coord.sub_of_le hwidth]
    · obtain ⟨w, hw, -⟩ := Coord.exists_sub (a := max ra rb) (b := min a.x b.x)
        (by omega) (by omega)
      rw [hw, Coord.sub_of_le (by omega)]

/-- **The union is the least rectangle around both.** -/
theorem union_pixels (ha : a.Edged) (hb : b.Edged) (hnear : Near a b) :
    ∃ u, a.union b = .ok u ∧
      ∀ r : Rect, u.pixels ⊆ r.pixels ↔ a.pixels ⊆ r.pixels ∧ b.pixels ⊆ r.pixels := by
  cases hpa : a.isEmpty with
  | true =>
    refine ⟨b, union_of_isEmpty_left hpa, fun r => ?_⟩
    rw [pixels_eq_empty hpa]
    exact (and_iff_right (Set.empty_subset _)).symm
  | false =>
    cases hpb : b.isEmpty with
    | true =>
      refine ⟨a, union_of_isEmpty_right hpa hpb, fun r => ?_⟩
      rw [pixels_eq_empty hpb]
      exact (and_iff_left (Set.empty_subset _)).symm
    | false =>
      obtain ⟨u, hu, haround⟩ := (union_eq ha hb hpa hpb).1 hnear
      exact ⟨u, hu, haround.least hpa hpb⟩

/-- Two rectangles that are not near have no union. -/
theorem union_of_not_near (ha : a.Edged) (hb : b.Edged) (hfar : ¬ Near a b) :
    a.union b = .error .subOverflow := by
  have hpa : a.isEmpty = false := Bool.eq_false_iff.2 fun h => hfar (near_of_isEmpty (.inl h))
  have hpb : b.isEmpty = false := Bool.eq_false_iff.2 fun h => hfar (near_of_isEmpty (.inr h))
  exact (union_eq ha hb hpa hpb).2 hfar

/-! ## The lattice -/

/-- **The operations on rectangles are those of the sets of their pixels**, for all rectangles
whose far edges are coordinates, the empty ones included. The union is the only one that may
fault, and it does so exactly if the two are too far apart for the sides of a rectangle. -/
theorem operations_of_pixels (a b : Rect) (ha : a.Edged) (hb : b.Edged) :
    (∃ i, a.intersect b = .ok i ∧ i.pixels = a.pixels ∩ b.pixels ∧
      (a.pixels ∩ b.pixels = ∅ → i = {})) ∧
    (∃ answer, a.contains b = .ok answer ∧
      (answer = true ↔ b.isEmpty = false ∧ b.pixels ⊆ a.pixels) ∧
      (answer = true ↔ b.isEmpty = false ∧ a.intersect b = .ok b)) ∧
    (Near a b → ∃ u, a.union b = .ok u ∧ a.pixels ⊆ u.pixels ∧ b.pixels ⊆ u.pixels ∧
      ∀ r : Rect, a.pixels ⊆ r.pixels → b.pixels ⊆ r.pixels → u.pixels ⊆ r.pixels) ∧
    (¬ Near a b → a.union b = .error .subOverflow) := by
  refine ⟨intersect_pixels ha hb, ?_, fun hnear => ?_, union_of_not_near ha hb⟩
  · obtain ⟨answer, hanswer, hiff⟩ := contains_eq ha hb
    rw [pixels_nonempty] at hiff
    refine ⟨answer, hanswer, hiff, hiff.trans (and_congr_right fun hpixel => ?_)⟩
    exact (intersect_eq_right ha hb (pixels_nonempty.2 hpixel)).symm
  · obtain ⟨u, hu, hleast⟩ := union_pixels ha hb hnear
    obtain ⟨hcoversA, hcoversB⟩ := (hleast u).1 (Set.Subset.refl _)
    exact ⟨u, hu, hcoversA, hcoversB, fun r hra hrb => (hleast r).2 ⟨hra, hrb⟩⟩

/-- Two rectangles that overlap, one of them above the origin: their common part is the
intersection of their pixels, and their union the least rectangle around these. Neither
contains the other; their common part is contained in the first. Two pixels at opposite ends of
a line have no union. -/
theorem operations_of_pixels_overlapping :
    let a : Rect := ⟨0, 0, 10, 10⟩
    let b : Rect := ⟨5, -3, 20, 6⟩
    let common : Rect := ⟨5, 0, 5, 3⟩
    (a.intersect b = .ok common ∧ common.pixels = a.pixels ∩ b.pixels) ∧
    (a.contains b = .ok false ∧ ¬ b.pixels ⊆ a.pixels ∧ a.intersect b ≠ .ok b) ∧
    (a.contains common = .ok true ∧ common.pixels ⊆ a.pixels ∧
      a.intersect common = .ok common) ∧
    a.union b = .ok ⟨0, -3, 25, 13⟩ ∧
      (∀ r : Rect, a.pixels ⊆ r.pixels → b.pixels ⊆ r.pixels →
        (⟨0, -3, 25, 13⟩ : Rect).pixels ⊆ r.pixels) ∧
      (⟨-0x80000000, 0, 1, 1⟩ : Rect).union ⟨0, 0, 1, 1⟩ = .error .subOverflow := by
  intro a b common
  have ha : a.Edged := ⟨⟨10, by decide⟩, ⟨10, by decide⟩⟩
  have hb : b.Edged := ⟨⟨25, by decide⟩, ⟨3, by decide⟩⟩
  have hc : common.Edged := ⟨⟨10, by decide⟩, ⟨3, by decide⟩⟩
  have hnear : Near a b := (near_iff rfl rfl).2 (by decide)
  obtain ⟨⟨i, hi, hcommon, -⟩, ⟨apart, hapart, hsubset, hmeets⟩, hunion, -⟩ :=
    operations_of_pixels a b ha hb
  obtain ⟨-, ⟨within, hwithin, hinside, hagain⟩, -⟩ := operations_of_pixels a common ha hc
  obtain ⟨u, hu, -, -, hleast⟩ := hunion hnear
  have hintersect : a.intersect b = .ok common := by decide
  have houtside : a.contains b = .ok false := by decide
  have hcontains : a.contains common = .ok true := by decide
  have hhull : a.union b = .ok ⟨0, -3, 25, 13⟩ := by decide
  cases hi.symm.trans hintersect
  cases hapart.symm.trans houtside
  cases hwithin.symm.trans hcontains
  cases hu.symm.trans hhull
  refine ⟨⟨hintersect, hcommon⟩, ⟨houtside, fun hall => ?_, fun hall => ?_⟩,
    ⟨hcontains, (hinside.1 rfl).2, (hagain.1 rfl).2⟩, hhull, hleast, ?_⟩
  · exact Bool.false_ne_true (hsubset.2 ⟨rfl, hall⟩)
  · exact Bool.false_ne_true (hmeets.2 ⟨rfl, hall⟩)
  · obtain ⟨-, -, -, hfar⟩ := operations_of_pixels ⟨-0x80000000, 0, 1, 1⟩ ⟨0, 0, 1, 1⟩
      ⟨⟨-0x7FFFFFFF, by decide⟩, ⟨1, by decide⟩⟩ ⟨⟨1, by decide⟩, ⟨1, by decide⟩⟩
    exact hfar ((near_iff rfl rfl).not.2 (by decide))

end Rect

end Compositor
