import Mathlib

/-!
# Rounding to single precision

The rational numbers of single precision are the multiples of a unit that depends on the size of
the number: 24 binary digits are kept, and nothing below `2 ^ -149`. `rounded` takes a rational
number to the nearest of them, a tie to the even multiple. It does not overflow; that a result is
infinite when it reaches `2 ^ 128` is a matter of the encoding.
-/
namespace SensorEvents.Single

/-- The whole number nearest to `q`; a tie goes to the even one. -/
def nearestEven (q : ℚ) : ℤ :=
  if 2 * (q - ⌊q⌋) < 1 then ⌊q⌋
  else if 1 < 2 * (q - ⌊q⌋) then ⌊q⌋ + 1
  else ⌊q⌋ + ⌊q⌋ % 2

/-- The nearest whole number is at most a half away, and even when it is just a half away. -/
theorem nearestEven_spec (q : ℚ) :
    2 * (q - nearestEven q) ≤ 1 ∧ -1 ≤ 2 * (q - nearestEven q) ∧
      (2 * (q - nearestEven q) = 1 ∨ 2 * (q - nearestEven q) = -1 → nearestEven q % 2 = 0) := by
  have hfloor := Int.floor_le q
  have hceil := Int.lt_floor_add_one q
  unfold nearestEven
  split_ifs with hlow hhigh
  · exact ⟨by linarith, by linarith, fun h => by rcases h with h | h <;> linarith⟩
  · push_cast
    exact ⟨by linarith, by linarith, fun h => by rcases h with h | h <;> linarith⟩
  · have htie : 2 * (q - ⌊q⌋) = 1 := by linarith
    rcases Int.emod_two_eq_zero_or_one ⌊q⌋ with heven | hodd
    · rw [heven, add_zero]
      exact ⟨by linarith, by linarith, fun _ => heven⟩
    · rw [hodd]
      push_cast
      exact ⟨by linarith, by linarith, fun _ => by omega⟩

/-- No other whole number is as near. -/
theorem nearestEven_unique {q : ℚ} {n : ℤ} (hle : 2 * (q - n) ≤ 1) (hge : -1 ≤ 2 * (q - n))
    (heven : 2 * (q - n) = 1 ∨ 2 * (q - n) = -1 → n % 2 = 0) : nearestEven q = n := by
  obtain ⟨hle', hge', heven'⟩ := nearestEven_spec q
  generalize nearestEven q = k at hle' hge' heven'
  have hupper : (k : ℚ) ≤ n + 1 := by linarith
  have hlower : (n : ℚ) ≤ k + 1 := by linarith
  have hupper' : k ≤ n + 1 := by exact_mod_cast hupper
  have hlower' : n ≤ k + 1 := by exact_mod_cast hlower
  -- two neighbours that are both a half away cannot both be even
  rcases lt_trichotomy k n with hlt | heq | hgt
  · have hk : k = n - 1 := by omega
    rw [hk] at heven' hle'
    push_cast at heven' hle'
    have h := heven (Or.inr (by linarith))
    have h' := heven' (Or.inl (by linarith))
    omega
  · exact heq
  · have hk : k = n + 1 := by omega
    rw [hk] at heven' hge'
    push_cast at heven' hge'
    have h := heven (Or.inl (by linarith))
    have h' := heven' (Or.inr (by linarith))
    omega

@[simp] theorem nearestEven_intCast (n : ℤ) : nearestEven n = n :=
  nearestEven_unique (by simp) (by simp) (by simp)

theorem nearestEven_neg (q : ℚ) : nearestEven (-q) = -nearestEven q := by
  obtain ⟨hle, hge, heven⟩ := nearestEven_spec q
  apply nearestEven_unique
  · push_cast; linarith
  · push_cast; linarith
  · push_cast
    intro h
    have := heven (by rcases h with h | h <;> [right; left] <;> linarith)
    omega

theorem nearestEven_mono {p q : ℚ} (h : p ≤ q) : nearestEven p ≤ nearestEven q := by
  obtain ⟨hpl, hpg, hpe⟩ := nearestEven_spec p
  obtain ⟨hql, hqg, hqe⟩ := nearestEven_spec q
  generalize nearestEven p = m at *
  generalize nearestEven q = n at *
  by_contra hlt
  have hle : (n : ℚ) + 1 ≤ m := by exact_mod_cast Int.not_le.mp hlt
  have hm : m = n + 1 := by
    have hge : (m : ℚ) ≤ n + 1 := by linarith
    have hge' : m ≤ n + 1 := by exact_mod_cast hge
    omega
  have hodd := hpe (Or.inr (by rw [hm]; push_cast; rw [hm] at hpg; push_cast at hpg; linarith))
  have heven := hqe (Or.inl (by linarith))
  omega

/-- A whole number at or above `q` is at or above the nearest one. -/
theorem nearestEven_le {q : ℚ} {n : ℤ} (h : q ≤ n) : nearestEven q ≤ n := by
  simpa using nearestEven_mono h

theorem le_nearestEven {q : ℚ} {n : ℤ} (h : (n : ℚ) ≤ q) : n ≤ nearestEven q := by
  simpa using nearestEven_mono h

/-- The exponent of the unit in which a number of the size of `q` is counted. -/
def unitExponent (q : ℚ) : ℤ := max (Int.log 2 |q| - 23) (-149)

/-- The number of single precision nearest to `q`. -/
def rounded (q : ℚ) : ℚ := nearestEven (q / 2 ^ unitExponent q) * 2 ^ unitExponent q

theorem two_zpow_pos (e : ℤ) : (0 : ℚ) < 2 ^ e := zpow_pos (by norm_num) e

@[simp] theorem rounded_zero : rounded 0 = 0 := by simp [rounded, nearestEven]

@[simp] theorem unitExponent_neg (q : ℚ) : unitExponent (-q) = unitExponent q := by
  simp [unitExponent]

theorem rounded_neg (q : ℚ) : rounded (-q) = -rounded q := by
  simp [rounded, neg_div, nearestEven_neg]

/-- The digits that are kept of a number reach at most one above 24 bits. -/
theorem abs_lt_of_unitExponent (q : ℚ) : |q| < 2 ^ (unitExponent q + 24) := by
  have hlog := Int.lt_zpow_succ_log_self (b := 2) (by norm_num) |q|
  refine hlog.trans_le (zpow_le_zpow_right₀ (by norm_num) ?_)
  have := le_max_left (Int.log 2 |q| - 23) (-149)
  unfold unitExponent
  omega

/-- Above the smallest unit, a number has 24 binary digits before its unit. -/
theorem le_abs_of_unitExponent {q : ℚ} (hq : q ≠ 0) (h : -149 < unitExponent q) :
    (2 : ℚ) ^ (unitExponent q + 23) ≤ |q| := by
  have hlog := Int.zpow_log_le_self (b := 2) (by norm_num) (abs_pos.mpr hq)
  have hunit : unitExponent q + 23 = Int.log 2 |q| := by
    unfold unitExponent at h ⊢
    omega
  rw [hunit]
  exact_mod_cast hlog

theorem unitExponent_mono {p q : ℚ} (hp : 0 < p) (h : p ≤ q) :
    unitExponent p ≤ unitExponent q := by
  unfold unitExponent
  rw [abs_of_pos hp, abs_of_pos (hp.trans_le h)]
  have := Int.log_mono_right (b := 2) hp h
  omega

theorem rounded_nonneg {q : ℚ} (h : 0 ≤ q) : 0 ≤ rounded q := by
  have hunits : (0 : ℤ) ≤ nearestEven (q / 2 ^ unitExponent q) :=
    le_nearestEven (by push_cast; exact div_nonneg h (two_zpow_pos _).le)
  exact mul_nonneg (by exact_mod_cast hunits) (two_zpow_pos _).le

theorem rounded_le_of_unitExponent (q : ℚ) : rounded q ≤ 2 ^ (unitExponent q + 24) := by
  have hpos := two_zpow_pos (unitExponent q)
  have hlt := (le_abs_self q).trans_lt (abs_lt_of_unitExponent q)
  rw [zpow_add₀ (by norm_num)] at hlt ⊢
  have hunits : nearestEven (q / 2 ^ unitExponent q) ≤ 2 ^ 24 := by
    apply nearestEven_le
    rw [div_le_iff₀ hpos]
    push_cast
    linarith
  have hunits' : (nearestEven (q / 2 ^ unitExponent q) : ℚ) ≤ 2 ^ (24 : ℤ) := by
    exact_mod_cast hunits
  unfold rounded
  nlinarith

theorem le_rounded_of_unitExponent {q : ℚ} (hq : 0 < q) (h : -149 < unitExponent q) :
    2 ^ (unitExponent q + 23) ≤ rounded q := by
  have hpos := two_zpow_pos (unitExponent q)
  have hle := le_abs_of_unitExponent hq.ne' h
  rw [abs_of_pos hq, zpow_add₀ (by norm_num)] at hle
  have hunits : 2 ^ 23 ≤ nearestEven (q / 2 ^ unitExponent q) := by
    apply le_nearestEven
    rw [le_div_iff₀ hpos]
    push_cast
    linarith
  have hunits' : (2 : ℚ) ^ (23 : ℤ) ≤ nearestEven (q / 2 ^ unitExponent q) := by
    exact_mod_cast hunits
  unfold rounded
  rw [zpow_add₀ (by norm_num)]
  nlinarith

theorem rounded_mono_of_pos {p q : ℚ} (hp : 0 < p) (h : p ≤ q) : rounded p ≤ rounded q := by
  rcases (unitExponent_mono hp h).eq_or_lt with heq | hlt
  · unfold rounded
    rw [heq]
    have hunits := nearestEven_mono (div_le_div_of_nonneg_right h (two_zpow_pos (unitExponent q)).le)
    exact mul_le_mul_of_nonneg_right (by exact_mod_cast hunits) (two_zpow_pos _).le
  -- a power of two stands between numbers that are counted in different units
  · have hunit : -149 ≤ unitExponent p := le_max_right _ _
    calc rounded p ≤ 2 ^ (unitExponent p + 24) := rounded_le_of_unitExponent p
      _ ≤ 2 ^ (unitExponent q + 23) := zpow_le_zpow_right₀ (by norm_num) (by omega)
      _ ≤ rounded q := le_rounded_of_unitExponent (hp.trans_le h) (by omega)

theorem rounded_mono {p q : ℚ} (h : p ≤ q) : rounded p ≤ rounded q := by
  rcases lt_trichotomy p 0 with hp | rfl | hp
  · rcases lt_or_ge q 0 with hq | hq
    · have hneg := rounded_mono_of_pos (neg_pos.mpr hq) (neg_le_neg h)
      rw [rounded_neg, rounded_neg] at hneg
      exact neg_le_neg_iff.mp hneg
    · have hneg := rounded_nonneg (neg_nonneg.mpr hp.le)
      rw [rounded_neg] at hneg
      exact (neg_nonneg.mp hneg).trans (rounded_nonneg hq)
  · rw [rounded_zero]
    exact rounded_nonneg h
  · exact rounded_mono_of_pos hp h

/-- A whole number of units is one of every smaller unit. -/
theorem units_of_le {n e u : ℤ} (h : u ≤ e) : ∃ k : ℤ, (n : ℚ) * 2 ^ e = k * 2 ^ u := by
  obtain ⟨d, hd⟩ := Int.eq_ofNat_of_zero_le (sub_nonneg.mpr h)
  refine ⟨n * 2 ^ d, ?_⟩
  rw [show e = (d : ℤ) + u by omega, zpow_add₀ (by norm_num), zpow_natCast]
  push_cast
  ring

/-- Only the largest number of digits is counted in a coarser unit, and it is even. -/
theorem units_of_gt {n e : ℤ} {q : ℚ} (hq : q = n * 2 ^ e) (hne : q ≠ 0) (hn : |n| ≤ 2 ^ 24)
    (he : -149 ≤ e) (h : e < unitExponent q) : ∃ k : ℤ, q = k * 2 ^ unitExponent q := by
  have hlow := le_abs_of_unitExponent hne (by omega)
  have habs : |q| = |n| * 2 ^ e := by
    rw [hq, abs_mul, abs_of_pos (two_zpow_pos e), Int.cast_abs]
  have hhigh : |q| ≤ 2 ^ (e + 24) := by
    rw [habs, zpow_add₀ (by norm_num), mul_comm]
    exact mul_le_mul_of_nonneg_left (by exact_mod_cast hn) (two_zpow_pos e).le
  have hunit : unitExponent q = e + 1 := by
    have := (zpow_le_zpow_iff_right₀ (by norm_num : (1 : ℚ) < 2)).mp (hlow.trans hhigh)
    omega
  have hdigits : |n| = 2 ^ 24 := by
    apply le_antisymm hn
    rw [hunit, habs, show e + 1 + 23 = 24 + e by ring, zpow_add₀ (by norm_num)] at hlow
    have := le_of_mul_le_mul_right hlow (two_zpow_pos e)
    exact_mod_cast this
  have hends := (abs_eq (by norm_num)).mp hdigits
  obtain ⟨k, hk⟩ : (2 : ℤ) ∣ n := by omega
  refine ⟨k, ?_⟩
  rw [hunit, hq, hk, zpow_add₀ (by norm_num)]
  push_cast
  ring

/-- A number of at most 24 binary digits is its own rounding. -/
theorem rounded_eq_self {n e : ℤ} (hn : |n| ≤ 2 ^ 24) (he : -149 ≤ e) :
    rounded (n * 2 ^ e) = n * 2 ^ e := by
  generalize hq : (n : ℚ) * 2 ^ e = q
  have hunits : ∃ k : ℤ, q = k * 2 ^ unitExponent q := by
    by_cases hle : unitExponent q ≤ e
    · obtain ⟨k, hk⟩ := units_of_le (n := n) hle
      exact ⟨k, hq.symm.trans hk⟩
    · by_cases hzero : q = 0
      · exact ⟨0, by simp [hzero]⟩
      · exact units_of_gt hq.symm hzero hn he (not_le.mp hle)
  obtain ⟨k, hk⟩ := hunits
  have hcount : q / 2 ^ unitExponent q = k := by
    rw [div_eq_iff (two_zpow_pos _).ne']
    exact hk
  rw [rounded, hcount, nearestEven_intCast]
  exact hk.symm

/-- Rounding moves a number by at most half of its unit. -/
theorem abs_rounded_sub_le (q : ℚ) : |rounded q - q| ≤ 2 ^ unitExponent q / 2 := by
  obtain ⟨hle, hge, -⟩ := nearestEven_spec (q / 2 ^ unitExponent q)
  have hpos := two_zpow_pos (unitExponent q)
  have hq : q / 2 ^ unitExponent q * 2 ^ unitExponent q = q := div_mul_cancel₀ q hpos.ne'
  unfold rounded
  rw [abs_le]
  constructor <;> nlinarith

/-- Rounding moves a number by no more than itself and the smallest unit. -/
theorem rounded_le {q : ℚ} (h : 0 ≤ q) : rounded q ≤ 2 * q + 2 ^ (-149 : ℤ) := by
  have hleast := two_zpow_pos (-149)
  rcases h.eq_or_lt with rfl | hpos
  · rw [rounded_zero]
    linarith
  have hlog : (2 : ℚ) ^ Int.log 2 |q| ≤ q := by
    have hself := Int.zpow_log_le_self (b := 2) (by norm_num) (abs_pos.mpr hpos.ne')
    rw [abs_of_pos hpos] at hself ⊢
    exact_mod_cast hself
  have hunit : (2 : ℚ) ^ unitExponent q ≤ q + 2 ^ (-149 : ℤ) := by
    unfold unitExponent
    rcases max_choice (Int.log 2 |q| - 23) (-149) with hmax | hmax <;> rw [hmax]
    · have hdigits := zpow_le_zpow_right₀ (a := (2 : ℚ)) (by norm_num)
        (show Int.log 2 |q| - 23 ≤ Int.log 2 |q| by omega)
      linarith
    · linarith
  have hmove := (abs_le.mp (abs_rounded_sub_le q)).2
  linarith

theorem unitExponent_le {q : ℚ} {k : ℤ} (hq : q ≠ 0) (h : |q| < 2 ^ k) (hk : -125 ≤ k) :
    unitExponent q ≤ k - 24 := by
  have hlog := (Int.lt_zpow_iff_log_lt (b := 2) (by norm_num) (abs_pos.mpr hq)).mp
    (by exact_mod_cast h : |q| < ((2 : ℕ) : ℚ) ^ k)
  unfold unitExponent
  omega

/-- A number that is nearer to the largest finite one than to the end of the range stays inside
the range. -/
theorem abs_rounded_lt {q : ℚ} (h : |q| < 2 ^ 128 - 2 ^ 103) : |rounded q| < 2 ^ 128 := by
  rcases eq_or_ne q 0 with rfl | hq
  · simp
  have hunit : unitExponent q ≤ 104 := by
    refine (unitExponent_le (k := 128) hq ?_ (by norm_num)).trans (by norm_num)
    exact h.trans (by norm_num)
  have hpow : (2 : ℚ) ^ unitExponent q ≤ 2 ^ (104 : ℤ) := zpow_le_zpow_right₀ (by norm_num) hunit
  have hmove := (abs_rounded_sub_le q).trans (div_le_div_of_nonneg_right hpow (by norm_num))
  have hsum := abs_add_le (rounded q - q) q
  rw [sub_add_cancel] at hsum
  norm_num at hmove h hsum ⊢
  linarith

end SensorEvents.Single
