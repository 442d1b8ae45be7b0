import SensorEvents.Proofs.Single.Order
import SensorEvents.Single.Arithmetic

/-!
# The operations on finite numbers

Sums, differences, products and quotients of finite numbers, and the conversion of whole numbers,
are correctly rounded: `Rounds x q` says that `x` is a number and that its value is that of `q`
rounded, kept at or below the end of the range.
-/
namespace SensorEvents.Single

open Float.Model Float.Model.UnpackedFloat

theorem signed_mul (s t : Sign) : signed (s * t) = signed s * signed t := by
  cases s <;> cases t <;> decide +kernel

theorem signed_div (s t : Sign) : signed (s / t) = signed s / signed t := by
  cases s <;> cases t <;> decide +kernel

theorem signed_neg (s : Sign) : signed (-s) = -signed s := by
  cases s <;> rfl

theorem cast_apply (s : Sign) (n : ℕ) : ((s.apply n : ℤ) : ℚ) = signed s * n := by
  cases s <;> simp [Sign.apply, signed]

/-- Digits brought to a unit that is not larger are worth the same. -/
theorem decreaseExponent_fst {m : ℕ} {e t : ℤ} (h : t ≤ e) :
    ((decreaseExponent m e t).1 : ℚ) * 2 ^ t = m * 2 ^ e := by
  obtain ⟨k, hk⟩ := Int.eq_ofNat_of_zero_le (sub_nonneg.mpr h)
  have hshift : (decreaseExponent m e t).1 = m <<< k := by
    simp only [decreaseExponent, hk]
    rfl
  rw [hshift, show t = e - k by omega, shiftLeft_mul_zpow]

theorem add_result {u v : UnpackedFloat} (hu : Canonical u) (hv : Canonical v)
    (hfu : u.isFinite = true) (hfv : v.isFinite = true) :
    Result (UnpackedFloat.add Format.binary32 u v) (value u + value v) := by
  obtain ⟨s, rfl⟩ | ⟨s, m, e, hm, rfl⟩ := zero_or_finite hfu <;>
    obtain ⟨t, rfl⟩ | ⟨t, n, f, hn, rfl⟩ := zero_or_finite hfv
  · have hsum : value (.zero s) + value (.zero t) = 0 := by simp [value]
    rw [hsum]
    cases s <;> cases t <;> exact zero_result _
  · simpa [UnpackedFloat.add, value] using hv.result hfv
  · simpa [UnpackedFloat.add, value] using hu.result hfu
  · have hsum : value (.finite s m e hm) + value (.finite t n f hn) =
        ((s.apply (decreaseExponent m e (min e f)).1 +
          t.apply (decreaseExponent n f (min e f)).1 : ℤ) : ℚ) * 2 ^ min e f := by
      rw [Int.cast_add, cast_apply, cast_apply, add_mul, mul_assoc, mul_assoc,
        decreaseExponent_fst (min_le_left e f), decreaseExponent_fst (min_le_right e f)]
      rfl
    rw [hsum]
    exact normalize_result ..

theorem value_neg (u : UnpackedFloat) : value u.neg = -value u := by
  cases u <;> simp [UnpackedFloat.neg, value, signed_neg]

theorem Canonical.neg {u : UnpackedFloat} (h : Canonical u) : Canonical u.neg := by
  cases u <;> exact h

theorem isFinite_neg (u : UnpackedFloat) : u.neg.isFinite = u.isFinite := by
  cases u <;> rfl

theorem apply_neg (s : Sign) (n : ℕ) : (-s).apply n = -s.apply n := by
  cases s with
  | negative => exact (neg_neg (n : ℤ)).symm
  | positive => rfl

/-- A difference is a sum with the number negated. -/
theorem sub_eq_add_of_neg (f : Format) (u v : UnpackedFloat) :
    UnpackedFloat.sub f u v = UnpackedFloat.add f u v.neg := by
  cases u with
  | notANumber => rfl
  | infinity s => cases v <;> rfl
  | zero s => cases v <;> rfl
  | finite s m e hm =>
    cases v with
    | finite t n g hn =>
      simp only [UnpackedFloat.sub, UnpackedFloat.add, UnpackedFloat.neg, apply_neg,
        Int.sub_eq_add_neg]
    | _ => rfl

theorem sub_result {u v : UnpackedFloat} (hu : Canonical u) (hv : Canonical v)
    (hfu : u.isFinite = true) (hfv : v.isFinite = true) :
    Result (UnpackedFloat.sub Format.binary32 u v) (value u - value v) := by
  rw [sub_eq_add_of_neg, sub_eq_add_neg, ← value_neg]
  exact add_result hu hv.neg hfu ((isFinite_neg v).trans hfv)

/-- A product of digits has enough of them to be rounded. -/
theorem mul_unit_le {m n : ℕ} {e f : ℤ} (hm : 0 < m) (hn : 0 < n) (h : Counted m e)
    (k : Counted n f) : e + f ≤ max (totalExponent (m * n) (e + f) - 24) (-149) := by
  rcases h.least with hlow | rfl
  · have hlog : 23 ≤ (m * n).log2 :=
      (Nat.le_log2 (Nat.mul_pos hm hn).ne').mpr (hlow.trans (Nat.le_mul_of_pos_right m hn))
    unfold totalExponent
    omega
  rcases k.least with hlow | rfl
  · have hlog : 23 ≤ (m * n).log2 :=
      (Nat.le_log2 (Nat.mul_pos hm hn).ne').mpr (hlow.trans (Nat.le_mul_of_pos_left n hm))
    unfold totalExponent
    omega
  · exact le_max_of_le_right (by norm_num)

theorem mul_result {u v : UnpackedFloat} (hu : Canonical u) (hv : Canonical v)
    (hfu : u.isFinite = true) (hfv : v.isFinite = true) :
    Result (UnpackedFloat.mul Format.binary32 u v) (value u * value v) := by
  obtain ⟨s, rfl⟩ | ⟨s, m, e, hm, rfl⟩ := zero_or_finite hfu <;>
    obtain ⟨t, rfl⟩ | ⟨t, n, f, hn, rfl⟩ := zero_or_finite hfv
  · simpa [UnpackedFloat.mul, value] using zero_result (s * t)
  · simpa [UnpackedFloat.mul, value] using zero_result (s * t)
  · simpa [UnpackedFloat.mul, value] using zero_result (s * t)
  · have hpos : 0 < m * n := Nat.mul_pos hm hn
    have hpos' : (0 : ℚ) < (m * n : ℕ) := by exact_mod_cast hpos
    have hprod : value (.finite s m e hm) * value (.finite t n f hn) =
        signed (s * t) * ((m * n : ℕ) * 2 ^ (e + f)) := by
      simp only [value]
      rw [signed_mul, zpow_add₀ (by norm_num)]
      push_cast
      ring
    rw [hprod]
    exact roundWithAccuracy_result (s * t) (stands_exact (m * n)) hpos' (Or.inl hpos.ne')
      (mul_unit_le hm hn hu hv)

/-- The quotient is brought to a unit in which it has enough digits to be rounded. -/
theorem div_unit_le {m n : ℕ} {e f t : ℤ} (hm : 0 < m) (hn : 0 < n)
    (ht : t = min (e - f) (max (totalExponent m e - totalExponent n f - 24) (-149))) :
    (m <<< (e - f - t).toNat / n ≠ 0 ∨ t ≤ -149) ∧
      t ≤ max (totalExponent (m <<< (e - f - t).toNat / n) t - 24) (-149) := by
  by_cases hsmall : t ≤ -149
  · exact ⟨Or.inr hsmall, le_max_of_le_right hsmall⟩
  generalize hk : (e - f - t).toNat = k
  unfold totalExponent at ht
  have hdigits : n.log2 + 24 ≤ m.log2 + k := by omega
  have hquotient : 2 ^ 23 ≤ m <<< k / n := by
    rw [Nat.le_div_iff_mul_le hn, Nat.shiftLeft_eq]
    calc 2 ^ 23 * n ≤ 2 ^ 23 * 2 ^ (n.log2 + 1) := Nat.mul_le_mul_left _ Nat.lt_log2_self.le
      _ = 2 ^ (n.log2 + 24) := by rw [← pow_add]; congr 1; omega
      _ ≤ 2 ^ (m.log2 + k) := Nat.pow_le_pow_right (by norm_num) hdigits
      _ = 2 ^ m.log2 * 2 ^ k := pow_add ..
      _ ≤ m * 2 ^ k := Nat.mul_le_mul_right _ (Nat.log2_self_le hm.ne')
  have hne : m <<< k / n ≠ 0 := by omega
  have hlog : 23 ≤ (m <<< k / n).log2 := (Nat.le_log2 hne).mpr hquotient
  refine ⟨Or.inl hne, ?_⟩
  unfold totalExponent
  omega

/-- The digits of a quotient and the rest that the division leaves. -/
theorem div_add_mod_div (m : ℕ) {n : ℕ} (hn : 0 < n) :
    ((m / n : ℕ) : ℚ) + ((m % n : ℕ) : ℚ) / n = m / n := by
  have hn' : (n : ℚ) ≠ 0 := by exact_mod_cast hn.ne'
  rw [eq_div_iff hn', add_mul, div_mul_cancel₀ _ hn']
  exact_mod_cast Nat.div_add_mod' m n

/-- A quotient of values, with the digits of the dividend shifted to the unit of the result. -/
theorem value_div_value {m n : ℕ} {e f w : ℤ} (hm : 0 < m) (hn : 0 < n) (s t : Sign) {k : ℕ}
    (hk : w + k = e - f) :
    value (.finite s m e hm) / value (.finite t n f hn) =
      signed (s / t) * ((m <<< k : ℕ) / n * 2 ^ w) := by
  have hshift := shiftLeft_mul_zpow m k (w + k)
  rw [add_sub_cancel_right, hk, zpow_sub₀ (by norm_num)] at hshift
  have hf := (two_zpow_pos f).ne'
  have hn' : (n : ℚ) ≠ 0 := by exact_mod_cast hn.ne'
  rw [div_mul_eq_mul_div, hshift]
  simp only [value]
  rw [signed_div]
  field_simp

theorem div_result {u v : UnpackedFloat} (hfu : u.isFinite = true) (hfv : v.isFinite = true)
    (hne : value v ≠ 0) :
    Result (UnpackedFloat.div Format.binary32 u v) (value u / value v) := by
  obtain ⟨t, rfl⟩ | ⟨t, n, f, hn, rfl⟩ := zero_or_finite hfv
  · exact absurd rfl hne
  obtain ⟨s, rfl⟩ | ⟨s, m, e, hm, rfl⟩ := zero_or_finite hfu
  · simpa [UnpackedFloat.div, value] using zero_result (s / t)
  · generalize hunit :
      min (e - f) (max (totalExponent m e - totalExponent n f - 24) (-149)) = w
    obtain ⟨hdigits, henough⟩ := div_unit_le hm hn hunit.symm
    generalize hk : (e - f - w).toNat = k at hdigits henough
    have hpos : (0 : ℚ) < (m <<< k : ℕ) / n := by
      rw [Nat.shiftLeft_eq]
      positivity
    have hstands := stands_fraction (Nat.mod_lt (m <<< k) hn) (m <<< k / n)
    rw [div_add_mod_div _ hn] at hstands
    have hresult := roundWithAccuracy_result (s / t) hstands hpos hdigits henough
    rw [← value_div_value hm hn s t (show w + k = e - f by omega)] at hresult
    have hdiv : UnpackedFloat.div Format.binary32 (.finite s m e hm) (.finite t n f hn) =
        roundWithAccuracy Format.binary32 (s / t) (m <<< k / n) w
          (accuracyOfFraction (m <<< k % n) n) := by
      simp only [UnpackedFloat.div, divCore, targetExponent_eq, hunit, hk]
    rwa [← hdiv] at hresult

/-- A number with the value of `q` rounded, or at the end of the range that `q` is beyond. -/
structure Rounds (x : Float32) (q : ℚ) : Prop where
  number : x.isNaN = false
  exact_eq : exact x = saturated (rounded q)

theorem rounds_of_result {u : UnpackedFloat} {q : ℚ} (h : Result u q) :
    Rounds (.ofModel (.pack u)) q := by
  refine ⟨(isNaN_unpack_pack h.canonical).trans ?_, ?_⟩
  · have hfinite := h.finite
    cases u <;> simp_all [UnpackedFloat.isFinite, UnpackedFloat.isNaN]
  · exact (value_unpack_pack h.canonical).trans (congrArg saturated h.value_eq)

theorem add_rounds {x y : Float32} (hx : x.isFinite = true) (hy : y.isFinite = true) :
    Rounds (x + y) (exact x + exact y) :=
  rounds_of_result (add_result (canonical x) (canonical y) hx hy)

theorem sub_rounds {x y : Float32} (hx : x.isFinite = true) (hy : y.isFinite = true) :
    Rounds (x - y) (exact x - exact y) :=
  rounds_of_result (sub_result (canonical x) (canonical y) hx hy)

theorem mul_rounds {x y : Float32} (hx : x.isFinite = true) (hy : y.isFinite = true) :
    Rounds (x * y) (exact x * exact y) :=
  rounds_of_result (mul_result (canonical x) (canonical y) hx hy)

theorem div_rounds {x y : Float32} (hx : x.isFinite = true) (hy : y.isFinite = true)
    (hne : exact y ≠ 0) : Rounds (x / y) (exact x / exact y) :=
  rounds_of_result (div_result hx hy hne)

theorem ofNat_rounds {n : ℕ} (hn : n < 2 ^ 64) : Rounds (ofNat n) n := by
  have hword : n.toUInt64.toNat = n := Nat.mod_eq_of_lt hn
  have hresult := normalize_result n.toUInt64.toNat 0 .positive
  have hrounds : Rounds (ofNat n) _ := rounds_of_result hresult
  simpa [hword] using hrounds

/-- Every number is its own rounding. -/
theorem rounds_self {x : Float32} (hx : x.isFinite = true) : Rounds x (exact x) :=
  ⟨isNaN_of_isFinite hx, by
    have hself : exact x = rounded (exact x) := ((canonical x).result hx).value_eq
    rw [← hself, saturated_of_abs_le (abs_exact_lt hx).le]⟩

namespace Rounds

variable {x y : Float32} {p q : ℚ}

theorem mono (hx : Rounds x p) (hy : Rounds y q) (h : p ≤ q) : exact x ≤ exact y := by
  rw [hx.exact_eq, hy.exact_eq]
  exact saturated_mono (rounded_mono h)

/-- Where nothing is beyond the end of the range the value is the rounded one. -/
theorem finite (h : Rounds x q) (hq : |rounded q| < 2 ^ 128) :
    x.isFinite = true ∧ exact x = rounded q := by
  have hexact : exact x = rounded q := h.exact_eq.trans (saturated_of_abs_le hq.le)
  exact ⟨isFinite_of_abs_exact_lt h.number (hexact ▸ hq), hexact⟩

end Rounds

/-- Whole numbers of at most 24 binary digits are exact. -/
theorem exact_ofNat {n : ℕ} (hn : n ≤ 2 ^ 24) : (ofNat n).isFinite = true ∧ exact (ofNat n) = n := by
  have hself := rounded_eq_self (n := n) (e := 0) (by rw [Nat.abs_cast]; exact_mod_cast hn)
    (by norm_num)
  have hself' : rounded n = n := by simpa using hself
  have hn' : (n : ℚ) ≤ 2 ^ 24 := by exact_mod_cast hn
  have hsmall : |rounded n| < 2 ^ 128 := by
    rw [hself', Nat.abs_cast]
    exact hn'.trans_lt (by norm_num)
  obtain ⟨hfinite, hexact⟩ := (ofNat_rounds (n := n) (by omega)).finite hsmall
  exact ⟨hfinite, hexact.trans hself'⟩

theorem zero_eq_ofNat : (0 : Float32) = ofNat 0 := by decide +kernel

theorem one_eq_ofNat : (1 : Float32) = ofNat 1 := by decide +kernel

@[simp] theorem exact_zero : exact 0 = 0 := by
  rw [zero_eq_ofNat, (exact_ofNat (by norm_num)).2, Nat.cast_zero]

@[simp] theorem exact_one : exact 1 = 1 := by
  rw [one_eq_ofNat, (exact_ofNat (by norm_num)).2, Nat.cast_one]

@[simp] theorem isFinite_zero : (0 : Float32).isFinite = true :=
  zero_eq_ofNat ▸ (exact_ofNat (by norm_num)).1

@[simp] theorem isFinite_one : (1 : Float32).isFinite = true :=
  one_eq_ofNat ▸ (exact_ofNat (by norm_num)).1

end SensorEvents.Single
