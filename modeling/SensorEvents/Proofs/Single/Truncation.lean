import SensorEvents.Proofs.Single.Special

/-!
# Cutting numbers off

A number that is cut to a byte loses its digits after the point and stops at the ends of the byte, so
that what is left depends on its value alone; NaN counts as zero there. Of a number that is kept
between two whole numbers, before and after, the whole part between them is left.
-/
namespace SensorEvents.Single

open Float.Model Float.Model.UnpackedFloat

variable {x : Float32}

/-- The digits that are left at the point are the whole part of the number. -/
theorem roundToInt_eq (s : Sign) (m : ℕ) (e : ℤ) :
    roundToInt s m e = s.apply ⌊(m : ℚ) * 2 ^ e⌋₊ := by
  generalize hup : e.toNat = up
  generalize hdown : (-e).toNat = down
  have hround : roundToInt s m e =
      s.apply ((ExtendedMantissa.ofMantissaAndAccuracy (m <<< up) .exact) >>> down).mantissa := by
    have hshift : (0 - (e - up)).toNat = down := by omega
    simp only [roundToInt, decreaseExponent, shiftToExponent, Int.sub_zero, hup, hshift]
  have hvalue : ((m <<< up : ℕ) : ℚ) / 2 ^ down = m * 2 ^ e := by
    rw [Nat.shiftLeft_eq]
    rcases le_total 0 e with hwhole | hpart
    · rw [show down = 0 by omega, show e = up by omega, zpow_natCast]
      simp
    · rw [show up = 0 by omega, show e = -(down : ℤ) by omega, zpow_neg, zpow_natCast]
      simp [div_eq_mul_inv]
  have hstands := (stands_exact (m <<< up)).shiftRight down
  rw [hvalue] at hstands
  have hfloor := (Nat.floor_eq_iff (hstands.mantissa_le.trans' (Nat.cast_nonneg _))).mpr
    ⟨hstands.mantissa_le, hstands.lt_mantissa⟩
  rw [hround, hfloor]

theorem toNat_ofNatClamp (n : ℕ) : (UInt8.ofNatClamp n).toNat = min 255 n := by
  unfold UInt8.ofNatClamp
  by_cases hfits : n < UInt8.size
  · have hle : n ≤ 255 := Nat.le_of_lt_succ hfits
    rw [dif_pos hfits, UInt8.toNat_ofNatLT, Nat.min_eq_right hle]
  · have hge : 255 ≤ n := Nat.le_of_succ_le (Nat.not_lt.mp hfits)
    rw [dif_neg hfits, UInt8.toNat_ofNatLT, Nat.min_eq_left hge]
    rfl

/-- What is left of a number is its whole part, kept within a byte. -/
theorem toByte_eq (x : Float32) : toByte x = min 255 ⌊exact x⌋₊ := by
  change (UInt8.ofNatClamp (toInt 0 255 x.toModel.unpack).toNat).toNat =
    min 255 ⌊value x.toModel.unpack⌋₊
  rw [toNat_ofNatClamp]
  cases x.toModel.unpack with
  | notANumber => simp [toInt, value]
  | zero s => simp [toInt, value]
  | infinity s =>
    cases s with
    | positive =>
      have hlarge : 255 ≤ ⌊value (.infinity .positive)⌋₊ := Nat.le_floor (by norm_num [value, signed])
      rw [Nat.min_eq_left hlarge]
      rfl
    | negative =>
      have hnone : ⌊value (.infinity .negative)⌋₊ = 0 :=
        Nat.floor_of_nonpos (by norm_num [value, signed])
      rw [hnone]
      rfl
  | finite s m e hm =>
    have hpos := natCast_mul_zpow_pos e hm
    simp only [toInt, roundToInt_eq, value]
    cases s with
    | positive => simp [Sign.apply, signed]
    | negative =>
      have hnone : ⌊signed .negative * (m * 2 ^ e)⌋₊ = 0 :=
        Nat.floor_of_nonpos (by simp only [signed]; linarith)
      rw [hnone]
      simp [Sign.apply]

/-- A number that is kept between two whole numbers, cut to a byte and kept between them again is
its whole part, kept between them. The first two steps change nothing more, for NaN either. -/
theorem toByte_limit {low high : ℕ} (horder : low ≤ high) (hhigh : high ≤ 255) (x : Float32) :
    max low (min (toByte (limit x (smaller (ofNat low) (ofNat high))
      (larger (ofNat low) (ofNat high)))) high) = max low (min ⌊exact x⌋₊ high) := by
  rw [toByte_eq]
  by_cases hnan : x.isNaN = true
  · rw [limit_of_isNaN hnan, exact_of_isNaN hnan, Nat.floor_zero, Nat.min_zero]
  obtain ⟨hlo, hlo'⟩ := exact_ofNat (n := low) (by omega)
  obtain ⟨hhi, hhi'⟩ := exact_ofNat (n := high) (by omega)
  have hbounds : exact (ofNat low) ≤ exact (ofNat high) := by
    rw [hlo', hhi']
    exact_mod_cast horder
  have hnumber := isNaN_of_isFinite hlo
  have hnumber' := isNaN_of_isFinite hhi
  obtain ⟨hsmaller, hlarger⟩ := isNaN_of_le (smaller_le_larger hnumber hnumber')
  have hbelow := (exact_smaller hnumber hnumber').trans (min_eq_left hbounds)
  have habove := (exact_larger hnumber hnumber').trans (max_eq_right hbounds)
  rw [exact_limit_eq (Bool.eq_false_iff.mpr hnan) hsmaller hlarger (by rwa [hbelow, habove]),
    hbelow, habove, hlo', hhi', Nat.floor_mono.map_min, Nat.floor_mono.map_max, Nat.floor_natCast,
    Nat.floor_natCast]
  omega

end SensorEvents.Single
