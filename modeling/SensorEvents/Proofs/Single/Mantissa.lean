import SensorEvents.Proofs.Single.Rounding

/-!
# Rounding of mantissas

A result is computed as a mantissa with two more bits, one for the first digit after the mantissa
and one that says whether anything follows it. `Stands` relates such a mantissa to the rational
number it stands for. Shifting keeps the relation, and so what the shifts arrive at is the
rounding of that number: `roundWithAccuracy_result`.
-/
namespace SensorEvents.Single

open Float.Model Float.Model.UnpackedFloat

/-- How many halves the digits of a mantissa count. -/
def halves (m : ExtendedMantissa) : ℕ := 2 * m.mantissa + m.roundBit.toNat

/-- The mantissa has the digits of `q`, and its last bit says whether `q` has more of them. -/
structure Stands (m : ExtendedMantissa) (q : ℚ) : Prop where
  le : (halves m : ℚ) ≤ 2 * q
  lt : 2 * q < halves m + 1
  exact_iff : m.stickyBit = false ↔ 2 * q = halves m

theorem Stands.of_eq {m : ExtendedMantissa} {q : ℚ} (hmore : m.stickyBit = false)
    (h : 2 * q = halves m) : Stands m q := by
  constructor
  · exact h.ge
  · rw [h]
    exact lt_add_one _
  · exact iff_of_true hmore h

theorem Stands.of_lt {m : ExtendedMantissa} {q : ℚ} (hmore : m.stickyBit = true)
    (hlow : halves m < 2 * q) (hhigh : 2 * q < halves m + 1) : Stands m q := by
  constructor
  · exact hlow.le
  · exact hhigh
  · refine iff_of_false ?_ hlow.ne'
    rw [hmore]
    nofun

theorem stands_exact (m : ℕ) : Stands (.ofMantissaAndAccuracy m .exact) m := by
  have hhalves : halves (.ofMantissaAndAccuracy m .exact) = 2 * m := rfl
  refine .of_eq rfl ?_
  rw [hhalves]
  push_cast
  rfl

/-- The accuracy of a quotient is that of its fractional part. -/
theorem stands_fraction {num den : ℕ} (h : num < den) (whole : ℕ) :
    Stands (.ofMantissaAndAccuracy whole (accuracyOfFraction num den)) (whole + num / den) := by
  have hden : (0 : ℚ) < den := by exact_mod_cast Nat.zero_lt_of_lt h
  have hlt : (num : ℚ) / den < 1 := (div_lt_one hden).mpr (by exact_mod_cast h)
  unfold accuracyOfFraction
  by_cases hzero : num = 0
  · simpa [hzero] using stands_exact whole
  have hpos : (0 : ℚ) < num / den := div_pos (by exact_mod_cast Nat.pos_of_ne_zero hzero) hden
  rw [if_neg hzero]
  rcases lt_trichotomy (2 * num) den with hlow | htie | hhigh
  · have hhalf : 2 * ((num : ℚ) / den) < 1 := by
      rw [← mul_div_assoc, div_lt_one hden]
      exact_mod_cast hlow
    have hhalves : halves (.ofMantissaAndAccuracy whole (.inexact .lt)) = 2 * whole := rfl
    rw [Nat.compare_eq_lt.mpr hlow]
    refine .of_lt rfl ?_ ?_ <;> rw [hhalves] <;> push_cast <;> linarith
  · have hhalf : 2 * ((num : ℚ) / den) = 1 := by
      rw [← mul_div_assoc, div_eq_one_iff_eq hden.ne']
      exact_mod_cast htie
    have hhalves : halves (.ofMantissaAndAccuracy whole (.inexact .eq)) = 2 * whole + 1 := rfl
    rw [Nat.compare_eq_eq.mpr htie]
    refine .of_eq rfl ?_
    rw [hhalves]
    push_cast
    linarith
  · have hhalf : 1 < 2 * ((num : ℚ) / den) := by
      rw [← mul_div_assoc, one_lt_div hden]
      exact_mod_cast hhigh
    have hhalves : halves (.ofMantissaAndAccuracy whole (.inexact .gt)) = 2 * whole + 1 := rfl
    rw [Nat.compare_eq_gt.mpr hhigh]
    refine .of_lt rfl ?_ ?_ <;> rw [hhalves] <;> push_cast <;> linarith

namespace Stands

variable {m : ExtendedMantissa} {q : ℚ}

theorem mantissa_le (h : Stands m q) : (m.mantissa : ℚ) ≤ q := by
  have hle := h.le
  rw [halves] at hle
  push_cast at hle
  have hbit : (0 : ℚ) ≤ (m.roundBit.toNat : ℚ) := by positivity
  linarith

theorem lt_mantissa (h : Stands m q) : q < m.mantissa + 1 := by
  have hlt := h.lt
  rw [halves] at hlt
  push_cast at hlt
  have hbit : (m.roundBit.toNat : ℚ) ≤ 1 := by exact_mod_cast Bool.toNat_le m.roundBit
  linarith

theorem shiftRightOne (h : Stands m q) : Stands m.shiftRightOne (q / 2) := by
  have hhalves : halves m.shiftRightOne = m.mantissa := by
    have hdigit : (m.mantissa % 2 != 0).toNat = m.mantissa % 2 := by
      rcases Nat.mod_two_eq_zero_or_one m.mantissa with hr | hr <;> simp [hr]
    rw [halves, ExtendedMantissa.shiftRightOne, hdigit]
    exact Nat.div_add_mod ..
  have htwice : 2 * (q / 2) = q := by ring
  have hmore := h.exact_iff
  have hle := h.le
  refine ⟨?_, ?_, ?_⟩ <;> rw [hhalves, htwice]
  · exact h.mantissa_le
  · exact h.lt_mantissa
  · rw [halves] at hmore hle
    simp only [ExtendedMantissa.shiftRightOne, Bool.or_eq_false_iff, hmore]
    cases hr : m.roundBit with
    | false => simp
    | true =>
      rw [hr] at hle
      push_cast at hle
      exact ⟨nofun, fun heq => by rw [heq] at hle; simp at hle; linarith⟩

theorem shiftRight (h : Stands m q) (n : ℕ) : Stands (m >>> n) (q / 2 ^ n) := by
  change Stands (n.repeat ExtendedMantissa.shiftRightOne m) _
  induction n with
  | zero => simpa [Nat.repeat] using h
  | succ n ih =>
    rw [Nat.repeat, pow_succ, ← div_div]
    exact ih.shiftRightOne

/-- The two bits after the mantissa are enough to round by. -/
theorem nearestEven_eq (h : Stands m q) : nearestEven q = m.roundedMantissa := by
  obtain ⟨hle, hlt, hmore⟩ := h
  obtain ⟨digits, half, more⟩ := m
  rw [halves] at hle hlt hmore
  push_cast at hle hlt hmore
  cases half <;> cases more <;>
    simp only [ExtendedMantissa.roundedMantissa, ExtendedMantissa.accuracy,
      Accuracy.roundToNearestEven, Bool.toNat_false, Bool.toNat_true, true_iff,
      Bool.true_eq_false, false_iff, Nat.cast_zero, Nat.cast_one, add_zero] at hle hlt hmore ⊢
  · have hq : q = (digits : ℤ) := by push_cast; linarith
    rw [hq, nearestEven_intCast]
  · have hne := lt_of_le_of_ne hle (Ne.symm hmore)
    apply nearestEven_unique <;> push_cast
    · linarith
    · linarith
    · rintro (heq | heq) <;> linarith
  · have heven : ((digits : ℤ) + (digits : ℤ) % 2) % 2 = 0 := by omega
    rcases Nat.mod_two_eq_zero_or_one digits with hr | hr <;>
      (apply nearestEven_unique <;> rw [hr] <;> push_cast <;>
        first | linarith | exact fun _ => by omega)
  · have hne := lt_of_le_of_ne hle (Ne.symm hmore)
    apply nearestEven_unique <;> push_cast
    · linarith
    · linarith
    · rintro (heq | heq) <;> linarith

end Stands

end SensorEvents.Single
