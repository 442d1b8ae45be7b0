import SensorEvents.Proofs.Single.Canonical

/-!
# The 32-bit encoding

Every pattern of bits is a canonical number whose unit is at most `2 ^ 104`. A canonical number of
that kind is encoded as it is, and one with a larger unit becomes an infinity. In terms of values
an encoded result is the exact one, rounded and kept at or below the end of the range.
-/
namespace SensorEvents.Single

open Float.Model Float.Model.UnpackedFloat

/-- The unit is not too large for the encoding. -/
def InRange : UnpackedFloat → Prop
  | .finite _ _ e _ => e ≤ 104
  | _ => True

theorem toNat_append_one (v : BitVec 23) : (1#1 ++ v).toNat = 2 ^ 23 + v.toNat := by
  rw [BitVec.toNat_append, ← Nat.shiftLeft_add_eq_or_of_lt v.isLt]
  simp [Nat.shiftLeft_eq]

theorem unpack_canonical (b : BitVec 32) :
    Canonical (unpack Format.binary32 b) ∧ InRange (unpack Format.binary32 b) := by
  have hmantissa : (@unpackMantissa Format.binary32 b).toNat < 2 ^ 23 := BitVec.isLt _
  have hexponent : (@unpackExponent Format.binary32 b).toNat < 2 ^ 8 := BitVec.isLt _
  unfold UnpackedFloat.unpack
  dsimp only
  split_ifs with hlast hzero hfirst hnone
  · exact ⟨trivial, trivial⟩
  · exact ⟨trivial, trivial⟩
  · exact ⟨trivial, trivial⟩
  · rw [hfirst]
    exact ⟨⟨hmantissa.trans (by norm_num), le_rfl, Or.inr rfl⟩, show (-149 : ℤ) ≤ 104 by decide⟩
  · have hpos : (@unpackExponent Format.binary32 b).toNat ≠ 0 := fun h =>
      hfirst (BitVec.eq_of_toNat_eq h)
    have hlt : (@unpackExponent Format.binary32 b).toNat ≠ 255 := fun h =>
      hlast (BitVec.eq_of_toNat_eq h)
    have hdigits := toNat_append_one (@unpackMantissa Format.binary32 b)
    have hbias : (Format.binary32.exponentBias : ℤ) = 127 := rfl
    simp only [Canonical, InRange, hbias]
    refine ⟨⟨?_, ?_, Or.inl ?_⟩, ?_⟩ <;> omega

theorem unpack_packComponents (s : Sign) (w : BitVec 8) (v : BitVec 23) :
    unpack Format.binary32 (packComponents Format.binary32 s w v) =
      if w = -1#8 then if v = 0#23 then .infinity s else .notANumber
      else if w = 0#8 then
        if h : v = 0#23 then .zero s
        else .finite s v.toNat (-149) (Nat.pos_of_ne_zero fun h' => h (BitVec.eq_of_toNat_eq h'))
      else .finite s (2 ^ 23 + v.toNat) (w.toNat - 150) (by omega) := by
  unfold UnpackedFloat.unpack
  have hbias : (Format.binary32.exponentBias : ℤ) = 127 := rfl
  simp only [unpackMantissa_packComponents, unpackExponent_packComponents,
    unpackSign_packComponents, Sign.ofBitVec_toBitVec]
  split_ifs with hlast hzero hfirst hnone
  · rfl
  · rfl
  · rfl
  · simp only [finite.injEq, true_and, hfirst, hbias]
    rfl
  · simp only [finite.injEq, true_and, toNat_append_one, hbias]
    rfl

/-- The leading digit of 24 is not written. -/
theorem unpack_normal (s : Sign) {m field : ℕ} (hm : 0 < m) (hlow : 2 ^ 23 ≤ m)
    (hhigh : m < 2 ^ 24) (hpos : 0 < field) (hlt : field < 255) :
    unpack Format.binary32
        (packComponents Format.binary32 s (BitVec.ofNat 8 field) (BitVec.ofNat 23 m)) =
      .finite s m (field - 150) hm := by
  have hw : (BitVec.ofNat 8 field).toNat = field := by
    rw [BitVec.toNat_ofNat]
    omega
  have hlast : BitVec.ofNat 8 field ≠ -1#8 := fun h =>
    hlt.ne (hw.symm.trans (congrArg BitVec.toNat h))
  have hfirst : BitVec.ofNat 8 field ≠ 0#8 := fun h =>
    hpos.ne' (hw.symm.trans (congrArg BitVec.toNat h))
  rw [unpack_packComponents, if_neg hlast, if_neg hfirst]
  simp only [finite.injEq, true_and, and_true, hw, BitVec.toNat_ofNat]
  omega

/-- Fewer digits are counted in the smallest unit. -/
theorem unpack_subnormal (s : Sign) {m : ℕ} (hm : 0 < m) (hlt : m < 2 ^ 23) :
    unpack Format.binary32 (packComponents Format.binary32 s 0#8 (BitVec.ofNat 23 m)) =
      .finite s m (-149) hm := by
  have hv : (BitVec.ofNat 23 m).toNat = m := by
    rw [BitVec.toNat_ofNat]
    omega
  have hsome : BitVec.ofNat 23 m ≠ 0#23 := fun h =>
    hm.ne' (hv.symm.trans (congrArg BitVec.toNat h))
  rw [unpack_packComponents, if_neg (by decide), if_pos rfl, dif_neg hsome]
  simp only [hv]

/-- A canonical number is encoded without loss when its unit is in range, and as an infinity
when it is not. -/
theorem unpack_pack_finite {s : Sign} {m : ℕ} {e : ℤ} (hm : 0 < m) (h : Counted m e) :
    unpack Format.binary32 (pack Format.binary32 (.finite s m e hm)) =
      if e ≤ 104 then .finite s m e hm else .infinity s := by
  obtain ⟨hdigits, hunit, hleast⟩ := h
  have hbias : (Format.binary32.exponentBias : ℤ) = 127 := rfl
  have hbits : Format.binary32.mantissaBits = 24 := rfl
  unfold UnpackedFloat.pack
  simp only [hbias, hbits]
  generalize hfield : (e + 127 + (23 : ℕ)).toNat = field
  by_cases hrange : e ≤ 104
  · rw [if_pos hrange, if_neg (by norm_num; omega)]
    by_cases hnormal : 2 ^ 23 ≤ m
    · have hlow := (Nat.le_log2 hm.ne').mpr hnormal
      have hhigh := (Nat.log2_lt hm.ne').mpr hdigits
      have hsame : (field : ℤ) - 150 = e := by omega
      rw [if_pos (by omega)]
      refine (unpack_normal s hm hnormal hdigits (by omega) (by omega)).trans ?_
      simp only [hsame]
    · have hlow := (Nat.log2_lt hm.ne').mpr (Nat.not_le.mp hnormal)
      obtain rfl : e = -149 := hleast.resolve_left hnormal
      rw [if_neg (by omega)]
      exact unpack_subnormal s hm (Nat.not_le.mp hnormal)
  · rw [if_neg hrange, if_pos (by norm_num; omega)]
    exact unpack_packComponents s _ _

/-- The value nearest to `q` that is not beyond the end of the range. -/
def saturated (q : ℚ) : ℚ := max (-2 ^ 128) (min q (2 ^ 128))

theorem saturated_mono {p q : ℚ} (h : p ≤ q) : saturated p ≤ saturated q :=
  max_le_max le_rfl (min_le_min h le_rfl)

theorem saturated_of_abs_le {q : ℚ} (h : |q| ≤ 2 ^ 128) : saturated q = q := by
  obtain ⟨hlow, hhigh⟩ := abs_le.mp h
  rw [saturated, min_eq_left hhigh, max_eq_right hlow]

theorem abs_signed (s : Sign) (q : ℚ) : |signed s * q| = |q| := by cases s <;> simp [signed]

theorem abs_value_le {s : Sign} {m : ℕ} {e : ℤ} {hm : 0 < m} (h : Counted m e) (hr : e ≤ 104) :
    |value (.finite s m e hm)| ≤ 2 ^ 128 - 2 ^ 104 := by
  have hdigits : (m : ℚ) ≤ 2 ^ 24 - 1 := by
    rw [le_sub_iff_add_le]
    exact_mod_cast h.digits
  have hunit : (2 : ℚ) ^ e ≤ 2 ^ (104 : ℤ) := zpow_le_zpow_right₀ (by norm_num) hr
  rw [value, abs_signed, abs_of_nonneg (mul_nonneg (by positivity) (two_zpow_pos e).le)]
  calc (m : ℚ) * 2 ^ e ≤ (2 ^ 24 - 1) * 2 ^ (104 : ℤ) :=
        mul_le_mul hdigits hunit (two_zpow_pos e).le (by norm_num)
    _ = 2 ^ 128 - 2 ^ 104 := by norm_num

theorem abs_value_lt {s : Sign} {m : ℕ} {e : ℤ} {hm : 0 < m} (h : Counted m e) (hr : e ≤ 104) :
    |value (.finite s m e hm)| < 2 ^ 128 :=
  (abs_value_le h hr).trans_lt (by norm_num)

theorem le_abs_value {m : ℕ} {e : ℤ} (h : Counted m e) (hr : 104 < e) :
    (2 : ℚ) ^ 128 ≤ m * 2 ^ e := by
  have hleast : 2 ^ 23 ≤ m := h.least.resolve_right (by omega)
  have hdigits : (2 : ℚ) ^ 23 ≤ m := by exact_mod_cast hleast
  have hunit : (2 : ℚ) ^ (105 : ℤ) ≤ 2 ^ e := zpow_le_zpow_right₀ (by norm_num) hr
  calc (2 : ℚ) ^ 128 = (2 : ℚ) ^ 23 * 2 ^ (105 : ℤ) := by norm_num
    _ ≤ (m : ℚ) * 2 ^ e := mul_le_mul hdigits hunit (two_zpow_pos _).le (by positivity)

/-- A canonical number is encoded as the nearest value that is not beyond the end of the range. -/
theorem value_unpack_pack {u : UnpackedFloat} (h : Canonical u) :
    value (unpack Format.binary32 (pack Format.binary32 u)) = saturated (value u) := by
  cases u with
  | finite s m e hm =>
    rw [unpack_pack_finite hm h]
    split_ifs with hr
    · exact (saturated_of_abs_le (abs_value_lt h hr).le).symm
    · have hlarge := le_abs_value h (Int.not_le.mp hr)
      cases s with
      | positive => simp [value, signed, saturated, min_eq_right hlarge]
      | negative =>
        rw [saturated, min_eq_left, max_eq_left]
        · simp [value, signed]
        · simpa [value, signed] using hlarge
        · simp only [value, signed]
          linarith
  | zero s =>
    refine (congrArg value (unpack_packComponents s 0#8 0#23)).trans ?_
    simp [value, saturated]
  | infinity s =>
    refine (congrArg value (unpack_packComponents s (-1#8) 0#23)).trans ?_
    cases s <;> simp [value, signed, saturated]
  | notANumber =>
    refine (congrArg value (unpack_packComponents .positive (-1#8) (1#23 <<< 22))).trans ?_
    simp [value, saturated]

/-- Only what is not a number is encoded as such. -/
theorem isNaN_unpack_pack {u : UnpackedFloat} (h : Canonical u) :
    (unpack Format.binary32 (pack Format.binary32 u)).isNaN = u.isNaN := by
  cases u with
  | finite s m e hm =>
    rw [unpack_pack_finite hm h]
    split_ifs <;> rfl
  | zero s => exact congrArg UnpackedFloat.isNaN (unpack_packComponents s 0#8 0#23)
  | infinity s => exact congrArg UnpackedFloat.isNaN (unpack_packComponents s (-1#8) 0#23)
  | notANumber =>
    exact congrArg UnpackedFloat.isNaN (unpack_packComponents .positive (-1#8) (1#23 <<< 22))

end SensorEvents.Single
