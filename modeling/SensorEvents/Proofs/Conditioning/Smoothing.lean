import SensorEvents.Conditioning.AdaptiveFilter
import SensorEvents.Proofs.Single.Selection

/-!
# Smoothing without drift

A mean of two numbers is rounded four times: the weights, the two products and their sum. Each
rounding may go up, and a filter runs for good, so that bounds which are only kept up to an error
say nothing about it. A power of two is kept exactly: the weights exceed one by less than what the
last rounding takes away.
-/
namespace SensorEvents.Single

/-- No reading is above this, as long as it comes from a word of 64 bits. -/
def ceiling : ℚ := 2 ^ 64

theorem ceiling_pos : 0 < ceiling := by norm_num [ceiling]

variable {x y w : Float32}

theorem rounded_ceiling_mul (hx : x.isFinite = true) :
    rounded (ceiling * exact x) = ceiling * exact x := by
  obtain ⟨n, e, hn, he, hexact⟩ := exact_digits hx
  have hscaled : ceiling * exact x = n * 2 ^ (e + 64) := by
    rw [hexact, ceiling, zpow_add₀ (by norm_num)]
    norm_cast
    ring
  rw [hscaled]
  exact rounded_eq_self hn (by omega)

theorem ofNat_within (n : ℕ) : Within ceiling (ofNat n) := by
  have hlt : n % 2 ^ 64 < 2 ^ 64 := Nat.mod_lt n (by norm_num)
  have hword : ofNat n = ofNat (n % 2 ^ 64) := by
    have hsame : n.toUInt64 = (n % 2 ^ 64).toUInt64 :=
      UInt64.toNat_inj.mp (Nat.mod_mod n (2 ^ 64)).symm
    unfold ofNat
    rw [hsame]
  rw [hword]
  generalize n % 2 ^ 64 = m at hlt
  have hlow : (0 : ℚ) ≤ rounded m := rounded_nonneg (Nat.cast_nonneg m)
  have hhigh : rounded m ≤ ceiling := by
    have htop := rounded_ceiling_mul isFinite_one
    rw [exact_one, mul_one] at htop
    rw [← htop]
    refine rounded_mono ?_
    rw [ceiling]
    exact_mod_cast hlt.le
  obtain ⟨hfinite, hexact⟩ := (ofNat_rounds hlt).finite (by
    rw [abs_of_nonneg hlow]
    exact hhigh.trans_lt (by norm_num [ceiling]))
  exact ⟨hfinite, hexact ▸ hlow, hexact ▸ hhigh⟩

/-- What exceeds the ceiling by less than half a unit is rounded to it. -/
theorem rounded_above_ceiling : rounded (ceiling + 2 ^ 39) = ceiling := by
  have hlog : Int.log 2 |ceiling + 2 ^ 39| = 64 := by
    have hwhole : |ceiling + 2 ^ 39| = ((2 ^ 64 + 2 ^ 39 : ℕ) : ℚ) := by
      rw [abs_of_pos (by positivity [ceiling_pos]), ceiling]
      norm_cast
    rw [hwhole, Int.log_natCast]
    exact_mod_cast Nat.log_eq_of_pow_le_of_lt_pow (by norm_num) (by norm_num)
  have hunit : unitExponent (ceiling + 2 ^ 39) = 41 := by
    rw [unitExponent, hlog]
    norm_num
  have hunits : nearestEven ((ceiling + 2 ^ 39) / 2 ^ (41 : ℤ)) = 2 ^ 23 := by
    apply nearestEven_unique <;> norm_num [ceiling]
  rw [rounded, hunit, hunits]
  norm_num [ceiling]

/-- A share of a number below the ceiling is at most that share of the ceiling. -/
theorem mul_within_share (hy : Within ceiling y) (hw : Within 1 w) :
    Within (ceiling * exact w) (y * w) := by
  have hrounds := mul_rounds hy.finite hw.finite
  have hbelow : rounded (exact y * exact w) ≤ ceiling * exact w := by
    rw [← rounded_ceiling_mul hw.finite]
    exact rounded_mono (mul_le_mul_of_nonneg_right hy.le_top hw.nonneg)
  have habove : 0 ≤ rounded (exact y * exact w) := rounded_nonneg (mul_nonneg hy.nonneg hw.nonneg)
  have hceiling : ceiling * exact w ≤ ceiling := mul_le_of_le_one_right ceiling_pos.le hw.le_top
  obtain ⟨hfinite, hexact⟩ := hrounds.finite (by
    rw [abs_of_nonneg habove]
    exact (hbelow.trans hceiling).trans_lt (by norm_num [ceiling]))
  exact ⟨hfinite, hexact ▸ habove, hexact ▸ hbelow⟩

/-- The other weight is a share too, and what it is too large is tiny. -/
theorem one_sub_within (hw : Within 1 w) (hpos : 0 < exact w) :
    Within 1 (1 - w) ∧ exact (1 - w) ≤ 1 - exact w + 2 ^ (-25 : ℤ) := by
  have hrounds := sub_rounds isFinite_one hw.finite
  rw [exact_one] at hrounds
  have hrest : 0 ≤ 1 - exact w := sub_nonneg.mpr hw.le_top
  have hwithin := hrounds.within hrest isFinite_one (by rw [exact_one]; linarith)
  rw [exact_one] at hwithin
  obtain ⟨-, hexact⟩ := hrounds.finite (abs_rounded_lt (by
    rw [abs_of_nonneg hrest]
    linarith))
  refine ⟨hwithin, ?_⟩
  rcases eq_or_ne (1 - exact w) 0 with hzero | hne
  · rw [hexact, hzero, rounded_zero]
    positivity
  · have hunit : unitExponent (1 - exact w) ≤ -24 := by
      refine (unitExponent_le (k := 0) hne ?_ (by norm_num)).trans (by norm_num)
      rw [abs_of_nonneg hrest, zpow_zero]
      linarith
    have hpower : (2 : ℚ) ^ unitExponent (1 - exact w) ≤ 2 ^ (-24 : ℤ) :=
      zpow_le_zpow_right₀ (by norm_num) hunit
    have herror := (abs_le.mp (abs_rounded_sub_le (1 - exact w))).2
    rw [hexact]
    calc rounded (1 - exact w) ≤ 1 - exact w + 2 ^ unitExponent (1 - exact w) / 2 := by linarith
      _ ≤ 1 - exact w + 2 ^ (-24 : ℤ) / 2 := by gcongr
      _ = 1 - exact w + 2 ^ (-25 : ℤ) := by norm_num

/-- Two shares of the ceiling do not round to more than the ceiling, although their weights add up
to a little more than one. -/
theorem rounded_shares_le {x v : Float32} (hx : Within (ceiling * exact v) x)
    (hy : Within (ceiling * exact w) y) (hv : exact v ≤ 1 - exact w + 2 ^ (-25 : ℤ)) :
    rounded (exact x + exact y) ≤ ceiling := by
  rw [← rounded_above_ceiling]
  refine rounded_mono ?_
  calc exact x + exact y ≤ ceiling * exact v + ceiling * exact w := add_le_add hx.le_top hy.le_top
    _ ≤ ceiling * (1 - exact w + 2 ^ (-25 : ℤ)) + ceiling * exact w := by
        linarith [mul_le_mul_of_nonneg_left hv ceiling_pos.le]
    _ = ceiling + 2 ^ 39 := by
        norm_num [ceiling]
        ring

end SensorEvents.Single

namespace SensorEvents.FilterState

open Single (exact Within ceiling)

/-- A mean of numbers below the ceiling is below the ceiling. -/
theorem blend_within {old new w : Float32} (hw : 0 < w ∧ w ≤ 1) (hold : Within ceiling old)
    (hnew : Within ceiling new) : Within ceiling (blend old new w) := by
  have hnumber := Single.isNaN_of_lt hw.1
  have hpos : 0 < exact w := by
    simpa using (Single.lt_iff_exact hnumber.1 hnumber.2).mp hw.1
  have hshare : Within 1 w := by
    refine Single.within_one_iff.mpr ⟨?_, hw.2⟩
    rw [Single.le_iff_exact hnumber.1 hnumber.2, Single.exact_zero]
    exact hpos.le
  obtain ⟨hrest, hexcess⟩ := Single.one_sub_within hshare hpos
  have hkept := Single.mul_within_share hold hrest
  have hadded := Single.mul_within_share hnew hshare
  have hsum := Single.add_rounds hkept.finite hadded.finite
  have hlow := Single.rounded_nonneg (add_nonneg hkept.nonneg hadded.nonneg)
  have hhigh := Single.rounded_shares_le hkept hadded hexcess
  obtain ⟨hfinite, hexact⟩ := hsum.finite (by
    rw [abs_of_nonneg hlow]
    exact hhigh.trans_lt (by norm_num [ceiling]))
  exact ⟨hfinite, hexact ▸ hlow, hexact ▸ hhigh⟩

end SensorEvents.FilterState
