import Mathlib
import Compositor.Span
import Compositor.Geometry.Transform

/-!
# Seconds in single precision

A span of time in seconds is rounded three times: the whole seconds, the rest, and their
sum. How large the errors are does not matter here, only that nothing is lost altogether:
however short a span is beside another, their quotient is more than zero.

The argument follows the exponent. A number of single precision that is positive and not
tiny is a mantissa of 24 bits times a power of two; `Magnitude` keeps the exponent of that
power between two bounds. Rounding moves it by one at most, and so the bounds of a sum or
a quotient follow from those of the operands. For spans they stay far away from where
precision is lost.
-/

namespace Compositor

open Float.Model Float.Model.UnpackedFloat

/-- **A positive number whose mantissa is full**, with an exponent between two bounds. -/
def Magnitude (low high : Int) (x : UnpackedFloat) : Prop :=
  ∃ (m : Nat) (e : Int) (hm : 0 < m),
    x = .finite .positive m e hm ∧ m.log2 = 23 ∧ low ≤ e ∧ e ≤ high

namespace Magnitude

variable {low high low' high' : Int} {x y : UnpackedFloat}

theorem mono (h : Magnitude low high x) (hlow : low' ≤ low) (hhigh : high ≤ high') :
    Magnitude low' high' x := by
  obtain ⟨m, e, hm, rfl, hlog, hle, hge⟩ := h
  exact ⟨m, e, hm, rfl, hlog, hlow.trans hle, hge.trans hhigh⟩

/-- A full mantissa has its 24th bit set, and none above. -/
theorem log2_eq_23 {m : Nat} : m.log2 = 23 ↔ 2 ^ 23 ≤ m ∧ m < 2 ^ 24 := by
  by_cases hm : m = 0
  · subst hm
    decide
  · rw [Nat.log2_eq_iff hm]

theorem log2_mul_two_pow {m : Nat} (hm : m ≠ 0) (k : Nat) :
    (m * 2 ^ k).log2 = m.log2 + k := by
  have hpos : 0 < 2 ^ k := Nat.two_pow_pos k
  rw [Nat.log2_eq_iff (Nat.mul_ne_zero hm hpos.ne'), Nat.pow_add, Nat.add_right_comm, Nat.pow_add]
  exact ⟨Nat.mul_le_mul_right _ (Nat.log2_self_le hm),
    Nat.mul_lt_mul_of_pos_right Nat.lt_log2_self hpos⟩

/-! ## Packing -/

theorem unpackSign_packComponents {spec : Format} {sign : Sign}
    {exponent : BitVec spec.exponentBits} {mantissa : BitVec spec.mantissaBitsWithoutImplicit} :
    unpackSign (packComponents spec sign exponent mantissa) = sign.toBitVec := by
  ext i hi
  obtain rfl : i = 0 := by omega
  simp [unpackSign, packComponents, BitVec.getLsbD_append, BitVec.getElem_append]

/-- A full mantissa is restored from its lower bits. -/
theorem toNat_append_ofNat {m : Nat} (hlog : m.log2 = 23) :
    (1#1 ++ BitVec.ofNat 23 m).toNat = m := by
  obtain ⟨hle, hlt⟩ := log2_eq_23.1 hlog
  rw [BitVec.toNat_append, ← Nat.shiftLeft_add_eq_or_of_lt (BitVec.isLt _), BitVec.toNat_ofNat,
    BitVec.toNat_ofNat, Nat.shiftLeft_eq]
  omega

/-- Packing such a number loses nothing, if the exponent fits. -/
theorem unpack_pack (h : Magnitude low high x) (hlow : -149 ≤ low) (hhigh : high ≤ 104) :
    (Float32.Model.pack x).unpack = x := by
  obtain ⟨m, e, hm, rfl, hlog, hle, hge⟩ := h
  obtain ⟨biased, hbiased⟩ : ∃ biased : Nat, (biased : Int) = e + 150 :=
    ⟨(e + 150).toNat, Int.toNat_of_nonneg (by omega)⟩
  have hpack : UnpackedFloat.pack .binary32 (.finite .positive m e hm) =
      packComponents .binary32 .positive (BitVec.ofNat 8 biased) (BitVec.ofNat 23 m) := by
    have hbias : (e + Format.binary32.exponentBias + (23 : Nat)).toNat = biased := by
      have h127 : Format.binary32.exponentBias = 127 := by decide
      rw [h127]
      omega
    unfold UnpackedFloat.pack
    dsimp only
    rw [hbias, if_neg (by omega), if_pos (by rw [hlog]; decide)]
  have htoNat : (BitVec.ofNat 8 biased).toNat = biased := by
    rw [BitVec.toNat_ofNat, Nat.mod_eq_of_lt (by omega)]
  have hnotOnes : BitVec.ofNat 8 biased ≠ -1#8 := fun heq => by
    have h255 : biased = 255 := htoNat.symm.trans (congrArg BitVec.toNat heq)
    omega
  have hnotZero : BitVec.ofNat 8 biased ≠ 0#8 := fun heq => by
    have hzero : biased = 0 := htoNat.symm.trans (congrArg BitVec.toNat heq)
    omega
  unfold Float32.Model.unpack Float32.Model.pack
  rw [UInt32.toBitVec_ofBitVec, hpack]
  unfold UnpackedFloat.unpack
  simp only [unpackMantissa_packComponents, unpackExponent_packComponents,
    unpackSign_packComponents]
  rw [if_neg hnotOnes, if_neg hnotZero]
  have hexponent : (biased : Int) - (Format.binary32.exponentBias + (23 : Nat)) = e := by
    have h127 : Format.binary32.exponentBias = 127 := by decide
    rw [h127]
    omega
  simp only [toNat_append_ofNat hlog, htoNat, hexponent]
  rfl

/-! ## Rounding -/

theorem mantissa_shiftRight (em : ExtendedMantissa) (k : Nat) :
    (em >>> k).mantissa = em.mantissa / 2 ^ k := by
  induction k with
  | zero => exact (Nat.div_one _).symm
  | succ k ih =>
    change (em >>> k).mantissa / 2 = _
    rw [ih, Nat.div_div_eq_div_mul, ← Nat.pow_succ]

/-- Rounding a mantissa adds one at most. -/
theorem roundedMantissa_bounds (em : ExtendedMantissa) :
    em.mantissa ≤ em.roundedMantissa ∧ em.roundedMantissa ≤ em.mantissa + 1 := by
  obtain ⟨m, roundBit, stickyBit⟩ := em
  cases roundBit <;> cases stickyBit <;>
    simp only [ExtendedMantissa.roundedMantissa, ExtendedMantissa.accuracy,
      Accuracy.roundToNearestEven] <;> omega

theorem targetExponent_eq (m : Nat) (e : Int) :
    Format.binary32.targetExponent (totalExponent m e) = max (m.log2 + e - 23) (-149) := by
  have hmin : Format.binary32.minExponent = -149 := by decide
  have hbits : Format.binary32.mantissaBits = 24 := by decide
  unfold Format.targetExponent totalExponent
  rw [hmin, hbits]
  omega

/-- A mantissa that is cut down to 24 bits is full. -/
theorem log2_div {m : Nat} (hlog : 23 ≤ m.log2) : (m / 2 ^ (m.log2 - 23)).log2 = 23 := by
  have hm : m ≠ 0 := by
    rintro rfl
    revert hlog
    decide
  have hsplit (b : Nat) : 2 ^ (m.log2 + b) = 2 ^ (23 + b) * 2 ^ (m.log2 - 23) := by
    rw [← Nat.pow_add]
    congr 1
    omega
  rw [log2_eq_23, Nat.le_div_iff_mul_le (Nat.two_pow_pos _),
    Nat.div_lt_iff_lt_mul (Nat.two_pow_pos _), ← hsplit 0, ← hsplit 1]
  exact ⟨Nat.log2_self_le hm, Nat.lt_log2_self⟩

/-- Shifting cuts a mantissa down to 24 bits, if it has as many. -/
theorem shiftToTargetExponent_eq {m : Nat} {e : Int} (accuracy : Accuracy) (hlog : 23 ≤ m.log2)
    (hlow : -149 ≤ m.log2 + e - 23) :
    ∃ em : ExtendedMantissa, em.mantissa = m / 2 ^ (m.log2 - 23) ∧
      shiftToTargetExponent .binary32 m e accuracy = (em, m.log2 + e - 23) := by
  have hshift : (Format.binary32.targetExponent (totalExponent m e) - e).toNat = m.log2 - 23 := by
    rw [targetExponent_eq]
    omega
  refine ⟨ExtendedMantissa.ofMantissaAndAccuracy m accuracy >>> (m.log2 - 23), ?_, ?_⟩
  · rw [mantissa_shiftRight]
    rcases accuracy with _ | (_ | _ | _) <;> rfl
  · unfold shiftToTargetExponent shiftToExponent
    dsimp only
    rw [hshift]
    congr 1
    omega

/-- **Rounding down to a full mantissa** takes the exponent to where the mantissa fits, or one
further. -/
theorem roundWithAccuracy {m : Nat} {e : Int} (accuracy : Accuracy) (hlog : 23 ≤ m.log2)
    (hlow : -149 ≤ m.log2 + e - 23) :
    Magnitude (m.log2 + e - 23) (m.log2 + e - 22)
      (roundWithAccuracy .binary32 .positive m e accuracy) := by
  obtain ⟨em, hem, hfirst⟩ := shiftToTargetExponent_eq accuracy hlog hlow
  have hfull := log2_eq_23.1 (hem ▸ log2_div hlog)
  have hrounded := roundedMantissa_bounds em
  -- rounding up may have filled a 25th bit
  have hcarry : em.roundedMantissa.log2 = 23 ∨ em.roundedMantissa.log2 = 24 := by
    rcases Nat.lt_or_ge em.roundedMantissa (2 ^ 24) with hlt | hge
    · exact .inl (log2_eq_23.2 ⟨hfull.1.trans hrounded.1, hlt⟩)
    · right
      have heq : em.roundedMantissa = 2 ^ 24 := by omega
      rw [heq, Nat.log2_two_pow]
  obtain ⟨em', hem', hsecond⟩ := shiftToTargetExponent_eq (m := em.roundedMantissa)
    (e := m.log2 + e - 23) .exact (by omega) (by omega)
  have hlog' : em'.mantissa.log2 = 23 := hem' ▸ log2_div (by omega)
  have hne : em'.mantissa ≠ 0 := by
    intro hzero
    rw [hzero] at hlog'
    revert hlog'
    decide
  unfold UnpackedFloat.roundWithAccuracy
  rw [hfirst]
  dsimp only
  rw [hsecond]
  dsimp only
  rw [dif_neg hne]
  exact ⟨_, _, Nat.pos_of_ne_zero hne, rfl, hlog', by omega, by omega⟩

/-- **Rounding** a mantissa of any length. -/
theorem round {m : Nat} {e : Int} (hm : 0 < m) (hlow : -149 ≤ m.log2 + e - 23) :
    Magnitude (m.log2 + e - 23) (m.log2 + e - 22)
      (UnpackedFloat.round .binary32 .positive m e) := by
  unfold UnpackedFloat.round decreaseExponent
  rw [targetExponent_eq, max_eq_left hlow]
  dsimp only
  generalize hshift : (e - (m.log2 + e - 23)).toNat = k
  have hlog : (m <<< k).log2 = m.log2 + k := by
    rw [Nat.shiftLeft_eq]
    exact log2_mul_two_pow hm.ne' k
  have hrounded := roundWithAccuracy (m := m <<< k) (e := e - k) .exact (by omega) (by omega)
  exact hrounded.mono (by omega) (by omega)

/-! ## Whole numbers, quotients and sums -/

theorem normalize_natCast {n : Nat} (hn : 0 < n) (e : Int) (s : Sign) :
    UnpackedFloat.normalize .binary32 n e s = UnpackedFloat.round .binary32 .positive n e := by
  have hcompare : compare (n : Int) 0 = .gt := compare_gt_iff_gt.2 (Int.natCast_pos.2 hn)
  unfold UnpackedFloat.normalize
  rw [hcompare]
  rfl

/-- A whole number that is not zero. -/
theorem ofNat {n : Nat} (hn : 0 < n) :
    Magnitude ((n.log2 : Int) - 23) (n.log2 - 22) (UnpackedFloat.ofNat .binary32 n) := by
  unfold UnpackedFloat.ofNat UnpackedFloat.ofInt
  rw [normalize_natCast hn]
  exact (round (e := 0) hn (by omega)).mono (by omega) (by omega)

/-- The quotient of two full mantissas, the first with 24 more bits. -/
theorem log2_quotient {m m' : Nat} (hlog : m.log2 = 23) (hlog' : m'.log2 = 23) :
    23 ≤ ((m <<< 24) / m').log2 ∧ ((m <<< 24) / m').log2 ≤ 24 := by
  obtain ⟨hle, hlt⟩ := log2_eq_23.1 hlog
  obtain ⟨hle', hlt'⟩ := log2_eq_23.1 hlog'
  have hpos : 0 < m' := by omega
  have hlow : 2 ^ 23 ≤ (m <<< 24) / m' := by
    rw [Nat.shiftLeft_eq, Nat.le_div_iff_mul_le hpos]
    omega
  have hhigh : (m <<< 24) / m' < 2 ^ 25 := by
    rw [Nat.shiftLeft_eq, Nat.div_lt_iff_lt_mul hpos]
    omega
  have hne : (m <<< 24) / m' ≠ 0 := by omega
  exact ⟨(Nat.le_log2 hne).2 hlow, Nat.le_of_lt_succ ((Nat.log2_lt hne).2 hhigh)⟩

/-- **A quotient.** -/
theorem div (hx : Magnitude low high x) (hy : Magnitude low' high' y)
    (hlow : -125 ≤ low - high') :
    Magnitude (low - high' - 24) (high - low' - 22) (UnpackedFloat.div .binary32 x y) := by
  obtain ⟨m, e, hm, rfl, hlog, hle, hge⟩ := hx
  obtain ⟨m', e', hm', rfl, hlog', hle', hge'⟩ := hy
  have htarget : min (e - e') (Format.binary32.targetExponent
      (totalExponent m e - totalExponent m' e')) = e - e' - 24 := by
    have hmin : Format.binary32.minExponent = -149 := by decide
    have hbits : Format.binary32.mantissaBits = 24 := by decide
    unfold Format.targetExponent totalExponent
    rw [hmin, hbits]
    omega
  have hshift : (e - e' - (e - e' - 24)).toNat = 24 := by omega
  obtain ⟨hquotient, hquotient'⟩ := log2_quotient hlog hlog'
  unfold UnpackedFloat.div divCore
  dsimp only
  rw [htarget, hshift]
  exact (roundWithAccuracy _ hquotient (by omega)).mono (by omega) (by omega)

/-- The sum of two full mantissas, each with some more bits. -/
theorem log2_sum {m m' : Nat} (hlog : m.log2 = 23) (hlog' : m'.log2 = 23) (a b : Nat) :
    23 + max a b ≤ (m <<< a + m' <<< b).log2 ∧ (m <<< a + m' <<< b).log2 ≤ 24 + max a b := by
  obtain ⟨hle, hlt⟩ := log2_eq_23.1 hlog
  obtain ⟨hle', hlt'⟩ := log2_eq_23.1 hlog'
  have hlow : 2 ^ (23 + max a b) ≤ m <<< a + m' <<< b := by
    rw [Nat.shiftLeft_eq, Nat.shiftLeft_eq, Nat.pow_add]
    rcases Nat.le_total a b with hab | hba
    · rw [Nat.max_eq_right hab]
      exact (Nat.mul_le_mul_right _ hle').trans (Nat.le_add_left ..)
    · rw [Nat.max_eq_left hba]
      exact (Nat.mul_le_mul_right _ hle).trans (Nat.le_add_right ..)
  have hbound {n k : Nat} (hn : n < 2 ^ 24) (hk : k ≤ max a b) :
      n <<< k < 2 ^ (24 + max a b) := by
    rw [Nat.shiftLeft_eq, Nat.pow_add]
    exact Nat.lt_of_lt_of_le (Nat.mul_lt_mul_of_pos_right hn (Nat.two_pow_pos k))
      (Nat.mul_le_mul_left _ (Nat.pow_le_pow_right (by decide) hk))
  have hhigh : m <<< a + m' <<< b < 2 ^ (24 + max a b + 1) := by
    rw [Nat.pow_succ, Nat.mul_two]
    exact Nat.add_lt_add (hbound hlt (Nat.le_max_left ..)) (hbound hlt' (Nat.le_max_right ..))
  have hne : m <<< a + m' <<< b ≠ 0 := by
    have := Nat.two_pow_pos (23 + max a b)
    omega
  exact ⟨(Nat.le_log2 hne).2 hlow, Nat.le_of_lt_succ ((Nat.log2_lt hne).2 hhigh)⟩

/-- **A sum.** -/
theorem add (hx : Magnitude low high x) (hy : Magnitude low' high' y)
    (hlow : -149 ≤ low) :
    Magnitude low (max high high' + 2) (UnpackedFloat.add .binary32 x y) := by
  obtain ⟨m, e, hm, rfl, hlog, hle, hge⟩ := hx
  obtain ⟨m', e', hm', rfl, hlog', hle', hge'⟩ := hy
  have hsum := log2_sum hlog hlog' (e - min e e').toNat (e' - min e e').toNat
  have hpos : 0 < m <<< (e - min e e').toNat + m' <<< (e' - min e e').toNat := by
    rw [Nat.shiftLeft_eq]
    exact Nat.add_pos_left (Nat.mul_pos hm (Nat.two_pow_pos _)) _
  have hadd : UnpackedFloat.add .binary32 (.finite .positive m e hm) (.finite .positive m' e' hm')
      = UnpackedFloat.round .binary32 .positive
          (m <<< (e - min e e').toNat + m' <<< (e' - min e e').toNat) (min e e') := by
    rw [← normalize_natCast hpos _ .positive, Int.natCast_add]
    rfl
  rw [hadd]
  exact (round hpos (by omega)).mono (by omega) (by omega)

end Magnitude

/-! ## Spans of time -/

/-- A number of single precision whose exponent is between two bounds. -/
def IsMagnitude (low high : Int) (x : Float32) : Prop := Magnitude low high x.toModel.unpack

namespace IsMagnitude

variable {low high low' high' : Int} {x y : Float32}

theorem mono (h : IsMagnitude low high x) (hlow : low' ≤ low) (hhigh : high ≤ high') :
    IsMagnitude low' high' x :=
  Magnitude.mono h hlow hhigh

/-- The packed result of an operation. -/
theorem of_pack {u : UnpackedFloat} (h : Magnitude low high u) (hlow : -149 ≤ low)
    (hhigh : high ≤ 104) : IsMagnitude low high (.ofModel (.pack u)) := by
  unfold IsMagnitude
  rwa [h.unpack_pack hlow hhigh]

theorem unpack_zero : Transform.zero.toModel.unpack = .zero .positive := by rfl

theorem zero_lt (h : IsMagnitude low high x) : Transform.zero < x := by
  obtain ⟨m, e, hm, hx, -⟩ := h
  refine decide_eq_true (p := Transform.zero.toModel < x.toModel) ?_
  change (Transform.zero.toModel.unpack.lt x.toModel.unpack) = true
  rw [unpack_zero, hx]
  rfl

theorem ofUInt64 {n : UInt64} (hn : 0 < n.toNat) : IsMagnitude (-23) 41 n.toFloat32 := by
  have hlog : n.toNat.log2 < 64 := (Nat.log2_lt hn.ne').2 n.toNat_lt
  exact of_pack ((Magnitude.ofNat hn).mono (by omega) (by omega)) (by decide) (by decide)

theorem div (hx : IsMagnitude low high x) (hy : IsMagnitude low' high' y)
    (hlow : -125 ≤ low - high') (hhigh : high - low' ≤ 126) :
    IsMagnitude (low - high' - 24) (high - low' - 22) (x / y) :=
  of_pack (Magnitude.div hx hy hlow) (by omega) (by omega)

theorem add (hx : IsMagnitude low high x) (hy : IsMagnitude low' high' y) (hlow : -149 ≤ low)
    (hhigh : max high high' ≤ 102) : IsMagnitude low (max high high' + 2) (x + y) :=
  of_pack (Magnitude.add hx hy hlow) hlow (by omega)

/-- Nothing is added to such a number, on either side. -/
theorem zero_add (hx : IsMagnitude low high x) (hy : y.toModel.unpack = .zero .positive)
    (hlow : -149 ≤ low) (hhigh : high ≤ 104) : IsMagnitude low high (y + x) := by
  obtain ⟨m, e, hm, hm', hlog⟩ := id hx
  refine of_pack (u := UnpackedFloat.add .binary32 y.toModel.unpack x.toModel.unpack) ?_ hlow hhigh
  rw [hy, hm']
  exact ⟨m, e, hm, rfl, hlog⟩

theorem add_zero (hx : IsMagnitude low high x) (hy : y.toModel.unpack = .zero .positive)
    (hlow : -149 ≤ low) (hhigh : high ≤ 104) : IsMagnitude low high (x + y) := by
  obtain ⟨m, e, hm, hm', hlog⟩ := id hx
  refine of_pack (u := UnpackedFloat.add .binary32 x.toModel.unpack y.toModel.unpack) ?_ hlow hhigh
  rw [hy, hm']
  exact ⟨m, e, hm, rfl, hlog⟩

end IsMagnitude

/-- One second, in nanoseconds. -/
theorem isMagnitude_second : IsMagnitude 6 7 (1000000000 : UInt32).toFloat32 :=
  .of_pack (Magnitude.ofNat (n := 1000000000) (by decide)) (by decide) (by decide)

/-- **A span in seconds has an exponent that is far from any limit**, whatever its length. -/
theorem Nanos.isMagnitude_toSeconds32 {t : Nanos} (hpos : 0 < t) (hspan : t ≤ longestSpan) :
    IsMagnitude (-54) 43 t.toSeconds32 := by
  have hwhole : t / nanosPerSecond < 2 ^ 64 := by
    rw [Nat.div_lt_iff_lt_mul (by decide)]
    exact Nat.lt_of_le_of_lt hspan (by decide)
  have hrest : t % nanosPerSecond < 2 ^ 64 :=
    Nat.lt_trans (Nat.mod_lt t (by decide)) (by decide)
  have hwhole' : (UInt64.ofNat (t / nanosPerSecond)).toNat = t / nanosPerSecond :=
    UInt64.toNat_ofNat_of_lt' hwhole
  have hrest' : (UInt64.ofNat (t % nanosPerSecond)).toNat = t % nanosPerSecond :=
    UInt64.toNat_ofNat_of_lt' hrest
  have hsplit := Nat.div_add_mod t nanosPerSecond
  unfold toSeconds32
  rcases Nat.eq_zero_or_pos (t % nanosPerSecond) with hnone | hsome
  · -- whole seconds: the rest is zero, and so is its quotient
    have hseconds : 0 < t / nanosPerSecond := by
      refine Nat.pos_of_ne_zero fun hzero => ?_
      rw [hzero, hnone, Nat.mul_zero] at hsplit
      exact hpos.ne hsplit
    rw [hnone]
    exact ((IsMagnitude.ofUInt64 (by rwa [hwhole'])).add_zero (by rfl) (by decide)
      (by decide)).mono (by decide) (by decide)
  · have hquotient := (IsMagnitude.ofUInt64 (by rwa [hrest'])).div isMagnitude_second (by decide)
      (by decide)
    rcases Nat.eq_zero_or_pos (t / nanosPerSecond) with hzero | hseconds
    · rw [hzero]
      exact (hquotient.zero_add (by rfl) (by decide) (by decide)).mono (by decide) (by decide)
    · exact ((IsMagnitude.ofUInt64 (by rwa [hwhole'])).add hquotient (by decide)
        (by decide)).mono (by decide) (by decide)

/-- **The quotient of two spans is positive**, however short the one is beside the other. -/
theorem Nanos.zero_lt_quotient {a b : Nanos} (ha : 0 < a) (hb : 0 < b) (ha' : a ≤ longestSpan)
    (hb' : b ≤ longestSpan) : Transform.zero < a.toSeconds32 / b.toSeconds32 :=
  ((isMagnitude_toSeconds32 ha ha').div (isMagnitude_toSeconds32 hb hb') (by decide)
    (by decide)).zero_lt

end Compositor
