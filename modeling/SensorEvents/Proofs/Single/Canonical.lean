import SensorEvents.Proofs.Single.Mantissa

/-!
# Canonical results

Every result of single-precision arithmetic has the digits and the unit that single precision
counts in; only the unit may still be too large for the encoding. `Result` says this of a number,
and that it is the rounding of the exact one. Multiplication and division round their digits
directly, sums and differences through `normalize`.
-/
namespace SensorEvents.Single

open Float.Model Float.Model.UnpackedFloat

/-- One or minus one. -/
def signed : Sign → ℚ
  | .negative => -1
  | .positive => 1

/-- The number that is meant. An infinity counts as the first power of two that is out of range,
so that values compare as the numbers do; NaN counts as zero. -/
def value : UnpackedFloat → ℚ
  | .infinity s => signed s * 2 ^ 128
  | .finite s m e _ => signed s * (m * 2 ^ e)
  | .zero _ => 0
  | .notANumber => 0

/-- The digits fit, the unit is not too small, and no smaller unit would do. -/
structure Counted (m : ℕ) (e : ℤ) : Prop where
  digits : m < 2 ^ 24
  unit : -149 ≤ e
  least : 2 ^ 23 ≤ m ∨ e = -149

/-- A finite number is zero or has digits. -/
theorem zero_or_finite {u : UnpackedFloat} (h : u.isFinite = true) :
    (∃ s, u = .zero s) ∨ ∃ s m e hm, u = .finite s m e hm := by
  cases u with
  | zero s => exact .inl ⟨s, rfl⟩
  | finite s m e hm => exact .inr ⟨s, m, e, hm, rfl⟩
  | infinity s => simp [UnpackedFloat.isFinite] at h
  | notANumber => simp [UnpackedFloat.isFinite] at h

/-- A finite number has the digits and the unit in which single precision counts. -/
def Canonical : UnpackedFloat → Prop
  | .finite _ m e _ => Counted m e
  | _ => True

/-- A number that is the rounding of `q`. -/
structure Result (u : UnpackedFloat) (q : ℚ) : Prop where
  canonical : Canonical u
  finite : u.isFinite = true
  value_eq : value u = rounded q

theorem targetExponent_eq (e : ℤ) : Format.binary32.targetExponent e = max (e - 24) (-149) := rfl

/-- The unit of a number can be read off its digits, if it has any or is small anyway. -/
theorem unitExponent_eq {m : ℕ} {q : ℚ} {e : ℤ} (hle : (m : ℚ) ≤ q) (hlt : q < m + 1) (hq : 0 < q)
    (hm : m ≠ 0 ∨ e ≤ -149) :
    unitExponent (q * 2 ^ e) = max (totalExponent m e - 24) (-149) := by
  have hpos : 0 < q * 2 ^ e := mul_pos hq (two_zpow_pos e)
  unfold unitExponent totalExponent
  rw [abs_of_pos hpos]
  rcases eq_or_ne m 0 with rfl | hne
  · have hsmall : q * 2 ^ e < ((2 : ℕ) : ℚ) ^ e := by
      have hone : q < 1 := by simpa using hlt
      have := mul_lt_mul_of_pos_right hone (two_zpow_pos e)
      simpa using this
    have hlog := (Int.lt_zpow_iff_log_lt (b := 2) (by norm_num) hpos).mp hsmall
    have hzero : Nat.log2 0 = 0 := Nat.log2_zero
    omega
  · have hlow : ((2 : ℕ) : ℚ) ^ ((m.log2 : ℤ) + e) ≤ q * 2 ^ e := by
      rw [zpow_add₀ (by norm_num), zpow_natCast, Nat.cast_ofNat]
      refine mul_le_mul_of_nonneg_right (le_trans ?_ hle) (two_zpow_pos e).le
      exact_mod_cast Nat.log2_self_le hne
    have hhigh : q * 2 ^ e < ((2 : ℕ) : ℚ) ^ ((m.log2 : ℤ) + 1 + e) := by
      rw [zpow_add₀ (by norm_num), Nat.cast_ofNat]
      refine mul_lt_mul_of_pos_right (lt_of_lt_of_le hlt ?_) (two_zpow_pos e)
      exact_mod_cast Nat.lt_log2_self (n := m)
    have h := (Int.zpow_le_iff_le_log (b := 2) (by norm_num) hpos).mp hlow
    have h' := (Int.lt_zpow_iff_log_lt (b := 2) (by norm_num) hpos).mp hhigh
    omega

/-- A shift to a unit that is not smaller arrives at that unit. -/
theorem shiftToTargetExponent_eq {m : ℕ} {e : ℤ} {accuracy : Accuracy} {t : ℤ}
    (ht : max (totalExponent m e - 24) (-149) = t) (he : e ≤ t) :
    shiftToTargetExponent Format.binary32 m e accuracy =
      (ExtendedMantissa.ofMantissaAndAccuracy m accuracy >>> (t - e).toNat, t) := by
  unfold shiftToTargetExponent shiftToExponent
  rw [targetExponent_eq, ht]
  simp only [Prod.mk.injEq, true_and]
  omega

/-- Digits that rounding has brought to one above 24 bits are counted in the next unit. -/
theorem shiftToTargetExponent_counted {r : ℕ} {t : ℤ} (hr : r ≤ 2 ^ 24) (ht : -149 ≤ t)
    (hleast : 2 ^ 23 ≤ r ∨ t = -149) :
    ∃ m e, shiftToTargetExponent Format.binary32 r t .exact =
        (ExtendedMantissa.ofMantissaAndAccuracy m .exact, e) ∧
      Counted m e ∧ (m : ℚ) * 2 ^ e = r * 2 ^ t := by
  rcases hr.lt_or_eq with hlt | rfl
  · have hlog : r.log2 ≤ 23 := by
      rcases eq_or_ne r 0 with rfl | hne
      · exact Nat.log2_zero.le.trans (Nat.zero_le _)
      · exact Nat.lt_succ_iff.mp ((Nat.log2_lt hne).mpr hlt)
    have hlow : 2 ^ 23 ≤ r → 23 ≤ r.log2 := fun h => (Nat.le_log2 (by omega)).mpr h
    have htarget : max (totalExponent r t - 24) (-149) = t := by
      unfold totalExponent
      omega
    refine ⟨r, t, ?_, ⟨hlt, ht, hleast⟩, rfl⟩
    rw [shiftToTargetExponent_eq htarget le_rfl, sub_self]
    rfl
  · have htarget : max (totalExponent (2 ^ 24) t - 24) (-149) = t + 1 := by
      unfold totalExponent
      rw [Nat.log2_two_pow]
      omega
    refine ⟨2 ^ 23, t + 1, ?_, ⟨by norm_num, by omega, Or.inl le_rfl⟩, ?_⟩
    · rw [shiftToTargetExponent_eq htarget (by omega), add_sub_cancel_left]
      rfl
    · rw [zpow_add₀ (by norm_num)]
      push_cast
      ring

/-- A number that is counted in the unit `2 ^ t` rounds to a whole number of units that 24 bits
hold, or nearly so. -/
theorem rounded_digits {q : ℚ} {t : ℤ} {r : ℕ} (hq : 0 < q) (hunit : unitExponent q = t)
    (hr : nearestEven (q / 2 ^ t) = r) :
    rounded q = r * 2 ^ t ∧ r ≤ 2 ^ 24 ∧ (2 ^ 23 ≤ r ∨ t = -149) := by
  have hvalue : rounded q = r * 2 ^ t := by rw [rounded, hunit, hr, Int.cast_natCast]
  refine ⟨hvalue, ?_, ?_⟩
  · have hbound := rounded_le_of_unitExponent q
    rw [hunit, hvalue, zpow_add₀ (by norm_num), mul_comm] at hbound
    exact_mod_cast le_of_mul_le_mul_left hbound (two_zpow_pos t)
  · rcases (le_max_right _ _ : -149 ≤ unitExponent q).eq_or_lt with heq | hlt
    · exact Or.inr (hunit.symm.trans heq.symm)
    · have hbound := le_rounded_of_unitExponent hq hlt
      rw [hunit, hvalue, zpow_add₀ (by norm_num), mul_comm] at hbound
      exact Or.inl (by exact_mod_cast le_of_mul_le_mul_right hbound (two_zpow_pos t))

/-- What a mantissa with its accuracy stands for is rounded, provided it has enough digits. -/
theorem roundWithAccuracy_result {m : ℕ} {e : ℤ} {accuracy : Accuracy} {q : ℚ} (s : Sign)
    (hq : Stands (.ofMantissaAndAccuracy m accuracy) q) (hpos : 0 < q) (hm : m ≠ 0 ∨ e ≤ -149)
    (he : e ≤ max (totalExponent m e - 24) (-149)) :
    Result (roundWithAccuracy Format.binary32 s m e accuracy) (signed s * (q * 2 ^ e)) := by
  generalize ht : max (totalExponent m e - 24) (-149) = t at he
  have hmantissa : (ExtendedMantissa.ofMantissaAndAccuracy m accuracy).mantissa = m := by
    rcases accuracy with _ | (_ | _ | _) <;> rfl
  have hle := hq.mantissa_le
  have hlt := hq.lt_mantissa
  rw [hmantissa] at hle hlt
  obtain ⟨k, hk⟩ := Int.eq_ofNat_of_zero_le (sub_nonneg.mpr he)
  have hunits : q * 2 ^ e / 2 ^ t = q / 2 ^ k := by
    rw [show t = (k : ℤ) + e by omega, zpow_add₀ (by norm_num), zpow_natCast,
      mul_div_mul_right _ _ (two_zpow_pos e).ne']
  have hround := (hq.shiftRight k).nearestEven_eq
  rw [← hunits] at hround
  obtain ⟨hvalue, hdigits, hleast⟩ := rounded_digits (mul_pos hpos (two_zpow_pos e))
    ((unitExponent_eq hle hlt hpos hm).trans ht) hround
  obtain ⟨m', e', hsecond, hcounted, hsame⟩ :=
    shiftToTargetExponent_counted hdigits (by omega) hleast
  have hsigned : rounded (signed s * (q * 2 ^ e)) = signed s * (m' * 2 ^ e') := by
    rw [hsame, ← hvalue]
    cases s
    · simp [signed, rounded_neg]
    · simp [signed]
  unfold roundWithAccuracy
  rw [shiftToTargetExponent_eq ht he, show (t - e).toNat = k by omega]
  simp only [hsecond]
  have hfinal : (ExtendedMantissa.ofMantissaAndAccuracy m' .exact).mantissa = m' := rfl
  split
  · next hzero =>
    refine ⟨trivial, rfl, ?_⟩
    rw [hsigned, ← hfinal, hzero]
    simp [value]
  · exact ⟨hcounted, rfl, hsigned.symm⟩

theorem totalExponent_shiftLeft {m : ℕ} (hm : m ≠ 0) (k : ℕ) (e : ℤ) :
    totalExponent (m <<< k) (e - k) = totalExponent m e := by
  have hlog : (m <<< k).log2 = m.log2 + k := by
    have hlow := Nat.log2_self_le hm
    have hhigh := Nat.lt_log2_self (n := m)
    have hne : m <<< k ≠ 0 := by simp [Nat.shiftLeft_eq, hm]
    rw [Nat.log2_eq_iff hne, Nat.shiftLeft_eq, pow_add, show m.log2 + k + 1 = m.log2 + 1 + k by ring,
      pow_add]
    exact ⟨Nat.mul_le_mul_right _ hlow, Nat.mul_lt_mul_of_pos_right hhigh (by positivity)⟩
  unfold totalExponent
  rw [hlog]
  push_cast
  ring

theorem shiftLeft_mul_zpow (m k : ℕ) (e : ℤ) :
    ((m <<< k : ℕ) : ℚ) * 2 ^ (e - k) = m * 2 ^ e := by
  rw [Nat.shiftLeft_eq, zpow_sub₀ (by norm_num), zpow_natCast]
  push_cast
  field_simp

theorem round_result {m : ℕ} (hm : m ≠ 0) (s : Sign) (e : ℤ) :
    Result (UnpackedFloat.round Format.binary32 s m e) (signed s * (m * 2 ^ e)) := by
  generalize hk : (e - max (totalExponent m e - 24) (-149)).toNat = k
  have hround : UnpackedFloat.round Format.binary32 s m e =
      roundWithAccuracy Format.binary32 s (m <<< k) (e - k) .exact := by
    unfold UnpackedFloat.round decreaseExponent
    simp only [targetExponent_eq, hk]
  have hne : m <<< k ≠ 0 := by simp [Nat.shiftLeft_eq, hm]
  have hpos : (0 : ℚ) < (m <<< k : ℕ) := by exact_mod_cast Nat.pos_of_ne_zero hne
  have hunit : e - k ≤ max (totalExponent (m <<< k) (e - k) - 24) (-149) := by
    rw [totalExponent_shiftLeft hm]
    omega
  have hresult := roundWithAccuracy_result s (stands_exact (m <<< k)) hpos (Or.inl hne) hunit
  rwa [shiftLeft_mul_zpow, ← hround] at hresult

theorem zero_result (s : Sign) : Result (.zero s) 0 := ⟨trivial, rfl, by simp [value]⟩

theorem normalize_result (z : ℤ) (e : ℤ) (s : Sign) :
    Result (UnpackedFloat.normalize Format.binary32 z e s) (z * 2 ^ e) := by
  rcases lt_trichotomy z 0 with hlt | rfl | hgt
  · have hresult := round_result (m := (-z).toNat) (by omega) .negative e
    have habs : (((-z).toNat : ℕ) : ℚ) = -z := by
      have : (((-z).toNat : ℕ) : ℤ) = -z := Int.toNat_of_nonneg (by omega)
      exact_mod_cast this
    unfold UnpackedFloat.normalize
    rw [compare_lt_iff_lt.mpr hlt]
    simpa [signed, habs] using hresult
  · simpa [UnpackedFloat.normalize] using zero_result s
  · have hresult := round_result (m := z.toNat) (by omega) .positive e
    have habs : ((z.toNat : ℕ) : ℚ) = z := by
      have : ((z.toNat : ℕ) : ℤ) = z := Int.toNat_of_nonneg (by omega)
      exact_mod_cast this
    unfold UnpackedFloat.normalize
    rw [compare_gt_iff_gt.mpr hgt]
    simpa [signed, habs] using hresult

/-- A canonical number is its own rounding. -/
theorem Canonical.result {u : UnpackedFloat} (h : Canonical u) (hf : u.isFinite = true) :
    Result u (value u) := by
  refine ⟨h, hf, ?_⟩
  obtain ⟨s, rfl⟩ | ⟨s, m, e, hm, rfl⟩ := zero_or_finite hf
  · simp [value]
  · have hdigits : |(m : ℤ)| ≤ 2 ^ 24 := by
      rw [abs_of_nonneg (by positivity)]
      exact_mod_cast h.digits.le
    have hself := rounded_eq_self hdigits h.unit
    rw [Int.cast_natCast] at hself
    cases s
    · simp [value, signed, rounded_neg, hself]
    · simp [value, signed, hself]

end SensorEvents.Single
