import Mathlib
import Compositor.Geometry.Grid

/-!
# Numbers of single precision on the line

A number of single precision has a place on the line of the rational numbers, which the grid
reads off its bits. An infinite number is put where the next number of its sign would be, far
beyond every coordinate. What is no number has no place.

Two things are shown of these places. Comparing two numbers compares their places, although the
comparison looks at exponents before it looks at mantissas: a mantissa is full unless the
exponent is the least. And rounding to the grid rounds the place, and takes the outermost
coordinate where the place is farther out. So rounding keeps the order, and the least of some
numbers is rounded to the least of what they are rounded to, whatever is passed over because it
is no number.
-/

namespace Compositor.Grid

open Float.Model Float.Model.UnpackedFloat

/-- **A finite number in its normal form**: the mantissa has at most 24 bits, and it has 24 unless
the exponent is the least. -/
structure IsNormal (m : Nat) (e : Int) : Prop where
  pos : 0 < m
  lt : m < 0x1000000
  least : -149 ≤ e
  most : e ≤ 104
  full : e = -149 ∨ 0x800000 ≤ m

/-- **What the bits of a number say**, beside what the number is unpacked to. -/
inductive Reads : UnpackedFloat → Reading → Prop where
  | infinity (s : Sign) : Reads (.infinity s) (.infinite (s == .negative))
  | notANumber : Reads .notANumber .none
  | zero (s : Sign) : Reads (.zero s) (.finite 0 (-149))
  | finite (s : Sign) {m : Nat} {e : Int} (h : IsNormal m e) :
    Reads (.finite s m e h.pos) (.finite (s.apply m) e)

/-! ## The parts of a number -/

theorem toNat_unpackMantissa (b : BitVec 32) :
    (@unpackMantissa .binary32 b).toNat = b.toNat % 0x800000 := by
  simp [unpackMantissa]

theorem toNat_unpackExponent (b : BitVec 32) :
    (@unpackExponent .binary32 b).toNat = b.toNat / 0x800000 % 0x100 := by
  simp [unpackExponent, Nat.shiftRight_eq_div_pow]

theorem ofBitVec_unpackSign (b : BitVec 32) :
    Sign.ofBitVec (@unpackSign .binary32 b) =
      if 0x80000000 ≤ b.toNat then .negative else .positive := by
  have hlt := b.isLt
  have hpositive : @unpackSign .binary32 b = 0#1 ↔ ¬ 0x80000000 ≤ b.toNat := by
    rw [← BitVec.toNat_inj]
    simp [unpackSign, Nat.shiftRight_eq_div_pow]
    omega
  unfold Sign.ofBitVec
  simp only [hpositive, ite_not]

/-- A number unpacked, with its parts computed from the bits. -/
theorem unpack_eq (x : Float32) :
    x.toModel.unpack =
      let s : Sign := if 0x80000000 ≤ x.toBits.toNat then .negative else .positive
      let exponent := x.toBits.toNat / 0x800000 % 0x100
      let fraction := x.toBits.toNat % 0x800000
      if exponent = 255 then if fraction = 0 then .infinity s else .notANumber
      else if exponent = 0 then
        if h : fraction = 0 then .zero s else .finite s fraction (-149) (Nat.pos_of_ne_zero h)
      else .finite s (fraction + 0x800000) (exponent - 150) (Nat.succ_pos _) := by
  have hmantissa : _ = x.toBits.toNat % _ := toNat_unpackMantissa x.toModel.toBits.toBitVec
  have hexponent : _ = x.toBits.toNat / _ % _ := toNat_unpackExponent x.toModel.toBits.toBitVec
  have hsign : _ = if _ ≤ x.toBits.toNat then _ else _ :=
    ofBitVec_unpackSign x.toModel.toBits.toBitVec
  have hones : @unpackExponent .binary32 x.toModel.toBits.toBitVec = -1#8 ↔
      x.toBits.toNat / 0x800000 % 0x100 = 255 := by
    rw [← BitVec.toNat_inj, hexponent]
    rfl
  have hzero : @unpackExponent .binary32 x.toModel.toBits.toBitVec = 0#8 ↔
      x.toBits.toNat / 0x800000 % 0x100 = 0 := by
    rw [← BitVec.toNat_inj, hexponent]
    rfl
  have hnone : @unpackMantissa .binary32 x.toModel.toBits.toBitVec = 0#23 ↔
      x.toBits.toNat % 0x800000 = 0 := by
    rw [← BitVec.toNat_inj, hmantissa]
    rfl
  have hfull : (1#1 ++ @unpackMantissa .binary32 x.toModel.toBits.toBitVec).toNat =
      x.toBits.toNat % 0x800000 + 0x800000 := by
    rw [BitVec.toNat_append, ← Nat.shiftLeft_add_eq_or_of_lt (BitVec.isLt _), hmantissa,
      Nat.add_comm]
    rfl
  have hbias : Format.binary32.exponentBias = 127 := by decide
  unfold Float32.Model.unpack UnpackedFloat.unpack
  simp only [hones, hzero, hnone, hsign, hbias, hfull, hexponent, hmantissa]
  split
  · rfl
  · split
    · next h =>
      rw [h]
      rfl
    · rfl

/-- **The grid reads what is unpacked**, and finite numbers are in their normal form. -/
theorem reads (x : Float32) : Reads x.toModel.unpack (read x) := by
  have hexponent : x.toBits.toNat / 0x800000 % 0x100 < 0x100 := Nat.mod_lt _ (by decide)
  have hfraction : x.toBits.toNat % 0x800000 < 0x800000 := Nat.mod_lt _ (by decide)
  rw [unpack_eq]
  unfold read
  dsimp only
  generalize x.toBits.toNat / 0x800000 % 0x100 = exponent at *
  generalize x.toBits.toNat % 0x800000 = fraction at *
  generalize hs : (if 0x80000000 ≤ x.toBits.toNat then .negative else .positive : Sign) = s
  have hnegative : decide (0x80000000 ≤ x.toBits.toNat) = (s == .negative) := by
    rw [← hs]
    split
    · next h => exact decide_eq_true h
    · next h => exact decide_eq_false h
  have happly (k : Nat) : (if (s == .negative) = true then -(k : Int) else k) = s.apply k := by
    cases s <;> rfl
  rw [hnegative, happly]
  split
  · split
    · exact .infinity s
    · exact .notANumber
  · next hfinite =>
    split
    · next hleast =>
      subst hleast
      split
      · next hzero =>
        subst hzero
        rw [← happly, Nat.cast_zero, neg_zero, ite_self]
        exact .zero s
      · next hsome =>
        exact .finite s ⟨Nat.pos_of_ne_zero hsome, by omega, le_refl _, by decide, .inl rfl⟩
    · next hmore =>
      have hmax : max exponent 1 = exponent := max_eq_left (Nat.one_le_iff_ne_zero.2 hmore)
      rw [hmax]
      exact .finite s ⟨Nat.succ_pos _, by omega, by omega, by omega, .inr (by omega)⟩

/-! ## Places -/

/-- **Where a number lies on the line.** -/
def Reading.place : Reading → ℚ
  | .finite mantissa exponent => mantissa * 2 ^ exponent
  | .infinite negative => if negative then -2 ^ 128 else 2 ^ 128
  | .none => 0

namespace IsNormal

variable {m m' : Nat} {e e' : Int}

theorem place_pos (h : IsNormal m e) : (0 : ℚ) < m * 2 ^ e :=
  mul_pos (Nat.cast_pos.2 h.pos) (zpow_pos two_pos e)

/-- A full mantissa with a larger exponent is more than any mantissa. -/
theorem place_lt_of_lt (h : IsNormal m e) (hfull : 0x800000 ≤ m') (hlt : e < e') :
    (m : ℚ) * 2 ^ e < m' * 2 ^ e' := by
  have hm : (m : ℚ) < 0x1000000 := by exact_mod_cast h.lt
  have hm' : (0x800000 : ℚ) ≤ m' := by exact_mod_cast hfull
  calc (m : ℚ) * 2 ^ e < 0x1000000 * 2 ^ e := mul_lt_mul_of_pos_right hm (zpow_pos two_pos e)
    _ = 0x800000 * 2 ^ (e + 1) := by rw [zpow_add_one₀ two_ne_zero]; ring
    _ ≤ m' * 2 ^ e' := mul_le_mul hm' (zpow_le_zpow_right₀ one_le_two hlt)
        (zpow_pos two_pos _).le (Nat.cast_nonneg _)

/-- Every finite number lies before the place of the infinite one. -/
theorem place_lt (h : IsNormal m e) : (m : ℚ) * 2 ^ e < 2 ^ 128 := by
  have hlt := h.place_lt_of_lt (le_refl 0x800000) (Int.lt_add_one_iff.2 h.most)
  exact hlt.trans_eq (by norm_num)

/-- **To compare exponents, and then mantissas, is to compare places.** -/
theorem compare_eq (h : IsNormal m e) (h' : IsNormal m' e') :
    (compare e e').then (compare m m') = compare ((m : ℚ) * 2 ^ e) (m' * 2 ^ e') := by
  have hleast := h.least
  have hleast' := h'.least
  rcases lt_trichotomy e e' with hlt | rfl | hgt
  · have hfull : 0x800000 ≤ m' := h'.full.resolve_left (by omega)
    rw [compare_lt_iff_lt.2 hlt, compare_lt_iff_lt.2 (h.place_lt_of_lt hfull hlt)]
    rfl
  · have hpos : (0 : ℚ) < 2 ^ e := zpow_pos two_pos e
    rw [compare_eq_iff_eq.2 rfl]
    rcases lt_trichotomy m m' with hlt | rfl | hgt
    · rw [compare_lt_iff_lt.2 hlt,
        compare_lt_iff_lt.2 (mul_lt_mul_of_pos_right (Nat.cast_lt.2 hlt) hpos)]
      rfl
    · rw [compare_eq_iff_eq.2 rfl, compare_eq_iff_eq.2 rfl]
      rfl
    · rw [compare_gt_iff_gt.2 hgt,
        compare_gt_iff_gt.2 (mul_lt_mul_of_pos_right (Nat.cast_lt.2 hgt) hpos)]
      rfl
  · have hfull : 0x800000 ≤ m := h.full.resolve_left (by omega)
    rw [compare_gt_iff_gt.2 hgt, compare_gt_iff_gt.2 (h'.place_lt_of_lt hfull hgt)]
    rfl

end IsNormal

theorem compare_neg (a b : ℚ) : compare (-a) (-b) = (compare a b).swap := by
  rcases lt_trichotomy a b with hlt | rfl | hgt
  · rw [compare_lt_iff_lt.2 hlt, compare_gt_iff_gt.2 (neg_lt_neg hlt)]
    rfl
  · rw [compare_eq_iff_eq.2 rfl, compare_eq_iff_eq.2 rfl]
    rfl
  · rw [compare_gt_iff_gt.2 hgt, compare_lt_iff_lt.2 (neg_lt_neg hgt)]
    rfl

namespace Reading

theorem place_zero : (finite 0 (-149)).place = 0 := by simp [place]

theorem place_infinite_positive : (infinite (Sign.positive == .negative)).place = 2 ^ 128 := rfl

theorem place_infinite_negative : (infinite (Sign.negative == .negative)).place = -2 ^ 128 := rfl

theorem place_finite_positive (m : Nat) (e : Int) :
    (finite (Sign.positive.apply m) e).place = m * 2 ^ e := by
  simp [place, Sign.apply]

theorem place_finite_negative (m : Nat) (e : Int) :
    (finite (Sign.negative.apply m) e).place = -(m * 2 ^ e) := by
  simp [place, Sign.apply]

end Reading

open Reading in
/-- **To compare numbers is to compare places.** -/
theorem Reads.compare_eq {u v : UnpackedFloat} {r r' : Reading} (hu : Reads u r) (hv : Reads v r')
    (hr : r ≠ .none) (hr' : r' ≠ .none) : u.compare v = some (compare r.place r'.place) := by
  have hless {a b : ℚ} (h : a < b) : some .lt = some (compare a b) := by
    rw [compare_lt_iff_lt.2 h]
  have hmore {a b : ℚ} (h : b < a) : some .gt = some (compare a b) := by
    rw [compare_gt_iff_gt.2 h]
  have hsame (a : ℚ) : some .eq = some (compare a a) := by
    rw [compare_eq_iff_eq.2 rfl]
  cases hu with
  | notANumber => exact absurd rfl hr
  | infinity s =>
    cases hv with
    | notANumber => exact absurd rfl hr'
    | infinity s' =>
      cases s <;> cases s' <;> simp only [place_infinite_negative, place_infinite_positive]
      · exact hsame _
      · exact hless (by norm_num)
      · exact hmore (by norm_num)
      · exact hsame _
    | zero s' =>
      rw [place_zero]
      cases s <;> simp only [place_infinite_negative, place_infinite_positive]
      · exact hless (by norm_num)
      · exact hmore (by norm_num)
    | finite s' h' =>
      have hpos := h'.place_pos
      have hlt := h'.place_lt
      cases s <;> cases s' <;>
        simp only [place_infinite_negative, place_infinite_positive, place_finite_negative,
          place_finite_positive]
      · exact hless (by linarith)
      · exact hless (by linarith)
      · exact hmore (by linarith)
      · exact hmore (by linarith)
  | zero s =>
    rw [place_zero]
    cases hv with
    | notANumber => exact absurd rfl hr'
    | infinity s' =>
      cases s' <;> simp only [place_infinite_negative, place_infinite_positive]
      · exact hmore (by norm_num)
      · exact hless (by norm_num)
    | zero s' => exact place_zero ▸ hsame 0
    | finite s' h' =>
      have hpos := h'.place_pos
      cases s' <;> simp only [place_finite_negative, place_finite_positive]
      · exact hmore (by linarith)
      · exact hless hpos
  | finite s h =>
    have hpos := h.place_pos
    have hlt := h.place_lt
    cases hv with
    | notANumber => exact absurd rfl hr'
    | infinity s' =>
      cases s <;> cases s' <;>
        simp only [place_infinite_negative, place_infinite_positive, place_finite_negative,
          place_finite_positive]
      · exact hmore (by linarith)
      · exact hless (by linarith)
      · exact hmore (by linarith)
      · exact hless (by linarith)
    | zero s' =>
      rw [place_zero]
      cases s <;> simp only [place_finite_negative, place_finite_positive]
      · exact hless (by linarith)
      · exact hmore hpos
    | finite s' h' =>
      have hpos' := h'.place_pos
      cases s <;> cases s' <;> simp only [place_finite_negative, place_finite_positive]
      · rw [compare_neg, ← h.compare_eq h']
        rfl
      · exact hless (by linarith)
      · exact hmore (by linarith)
      · exact congrArg some (h.compare_eq h')

variable {x y : Float32}

theorem read_ne_none (hx : x.isNaN = false) : read x ≠ .none := by
  have hreads := reads x
  unfold Float32.isNaN Float32.Model.isNaN at hx
  intro hnone
  rw [hnone] at hreads
  generalize x.toModel.unpack = u at *
  cases hreads
  cases hx

/-- **One number is less than another where its place is.** -/
theorem lt_iff_place (hx : x.isNaN = false) (hy : y.isNaN = false) :
    x < y ↔ (read x).place < (read y).place := by
  have hcompare := (reads x).compare_eq (reads y) (read_ne_none hx) (read_ne_none hy)
  have hlt : x < y ↔ (x.toModel.unpack.compare y.toModel.unpack == some .lt) = true :=
    decide_eq_true_iff (p := x.toModel < y.toModel)
  rw [hlt, hcompare, beq_iff_eq, Option.some.injEq, compare_lt_iff_lt]

/-! ## Rounding to the grid -/

theorem floorScaled_eq (mantissa exponent : Int) :
    floorScaled mantissa exponent = ⌊(mantissa : ℚ) * 2 ^ exponent⌋ := by
  unfold floorScaled
  split
  · next h =>
    obtain ⟨k, rfl⟩ := Int.eq_ofNat_of_zero_le h
    rw [Int.natAbs_natCast, Int.shiftLeft_eq, zpow_natCast]
    exact_mod_cast (@Int.floor_intCast ℚ _ _ _ _ (mantissa * 2 ^ k)).symm
  · next h =>
    obtain ⟨k, rfl⟩ : ∃ k : Nat, exponent = -k := ⟨exponent.natAbs, by omega⟩
    rw [Int.natAbs_neg, Int.natAbs_natCast, Int.shiftRight_eq_div_pow, zpow_neg, zpow_natCast,
      ← div_eq_mul_inv]
    exact_mod_cast (Rat.floor_intCast_div_natCast mantissa (2 ^ k)).symm

theorem place_infinite (negative : Bool) :
    (Reading.infinite negative).place =
      ((if negative then -2 ^ 128 else 2 ^ 128 : Int) : ℚ) := by
  cases negative <;> norm_num [Reading.place]

/-- An infinite number is farther out than every coordinate. -/
theorem clamp_infinite (negative : Bool) :
    clamp (if negative then -2 ^ 128 else 2 ^ 128) =
      if negative then Int32.minValue else Int32.maxValue := by
  cases negative <;> rfl

/-- **Rounding down is rounding the place down**, within the coordinates. -/
theorem floor_eq (hx : x.isNaN = false) : floor x = clamp ⌊(read x).place⌋ := by
  have hsome := read_ne_none hx
  unfold floor
  cases hread : read x with
  | none => exact absurd hread hsome
  | finite mantissa exponent => exact congrArg clamp (floorScaled_eq mantissa exponent)
  | infinite negative =>
    rw [place_infinite, Int.floor_intCast]
    exact (clamp_infinite negative).symm

/-- **Rounding up is rounding the place up**, within the coordinates. -/
theorem ceil_eq (hx : x.isNaN = false) : ceil x = clamp ⌈(read x).place⌉ := by
  have hsome := read_ne_none hx
  unfold ceil
  cases hread : read x with
  | none => exact absurd hread hsome
  | finite mantissa exponent =>
    refine congrArg clamp ?_
    rw [floorScaled_eq, Int.cast_neg, neg_mul, Int.floor_neg, neg_neg]
    rfl
  | infinite negative =>
    rw [place_infinite, Int.ceil_intCast]
    exact (clamp_infinite negative).symm

theorem toInt_clamp_mono {i j : Int} (h : i ≤ j) : (clamp i).toInt ≤ (clamp j).toInt := by
  rw [toInt_clamp, toInt_clamp]
  exact max_le_max_left _ (min_le_min_right _ h)

/-- A number that is not greater is not rounded down to more. -/
theorem toInt_floor_le (hx : x.isNaN = false) (hy : y.isNaN = false) (h : ¬ y < x) :
    (floor x).toInt ≤ (floor y).toInt := by
  rw [lt_iff_place hy hx, not_lt] at h
  rw [floor_eq hx, floor_eq hy]
  exact toInt_clamp_mono (Int.floor_mono h)

/-- A number that is not greater is not rounded up to more. -/
theorem toInt_ceil_le (hx : x.isNaN = false) (hy : y.isNaN = false) (h : ¬ y < x) :
    (ceil x).toInt ≤ (ceil y).toInt := by
  rw [lt_iff_place hy hx, not_lt] at h
  rw [ceil_eq hx, ceil_eq hy]
  exact toInt_clamp_mono (Int.ceil_mono h)

theorem toInt_floor_le_toInt_ceil (hx : x.isNaN = false) : (floor x).toInt ≤ (ceil x).toInt := by
  rw [floor_eq hx, ceil_eq hx]
  exact toInt_clamp_mono (Int.floor_le_ceil _)

end Compositor.Grid
