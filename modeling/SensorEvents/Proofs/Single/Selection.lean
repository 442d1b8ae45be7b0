import SensorEvents.Proofs.Single.Operations

/-!
# Selections

What the larger and the smaller of two numbers are, and what is left of a number that is kept
between two bounds, in terms of values. A NaN loses against a number, but passes through a clamp.
-/
namespace SensorEvents.Single

variable {x y lo hi : Float32}

theorem not_lt_of_isNaN_left (hx : x.isNaN = true) : ¬ x < y := by
  intro h
  exact absurd hx (ne_true_of_eq_false (isNaN_of_lt h).1)

theorem not_lt_of_isNaN_right (hy : y.isNaN = true) : ¬ x < y := by
  intro h
  exact absurd hy (ne_true_of_eq_false (isNaN_of_lt h).2)

theorem isFinite_larger (hx : x.isFinite = true) (hy : y.isFinite = true) :
    (larger x y).isFinite = true := by
  unfold larger
  split_ifs <;> assumption

/-- Of two numbers, the smaller is at or below the larger. -/
theorem smaller_le_larger (hx : x.isNaN = false) (hy : y.isNaN = false) :
    smaller x y ≤ larger x y := by
  have hy' : ¬ y.isNaN = true := ne_true_of_eq_false hy
  unfold smaller larger
  rw [if_neg hy', if_neg hy']
  split_ifs with hlt hgt hgt
  · exact (le_iff_exact hx hx).mpr le_rfl
  · exact (le_iff_exact hx hy).mpr ((lt_iff_exact hx hy).mp hlt).le
  · exact (le_iff_exact hy hx).mpr ((lt_iff_exact hy hx).mp hgt).le
  · exact (le_iff_exact hy hy).mpr le_rfl

theorem exact_smaller (hx : x.isNaN = false) (hy : y.isNaN = false) :
    exact (smaller x y) = min (exact x) (exact y) := by
  unfold smaller
  rw [if_neg (ne_true_of_eq_false hy)]
  by_cases hlt : x < y
  · rw [if_pos hlt, min_eq_left ((lt_iff_exact hx hy).mp hlt).le]
  · rw [if_neg hlt]
    rw [lt_iff_exact hx hy, not_lt] at hlt
    rw [min_eq_right hlt]

theorem exact_larger (hx : x.isNaN = false) (hy : y.isNaN = false) :
    exact (larger x y) = max (exact x) (exact y) := by
  unfold larger
  rw [if_neg (ne_true_of_eq_false hy)]
  by_cases hlt : y < x
  · rw [if_pos hlt, max_eq_left ((lt_iff_exact hy hx).mp hlt).le]
  · rw [if_neg hlt]
    rw [lt_iff_exact hy hx, not_lt] at hlt
    rw [max_eq_right hlt]

/-- The larger of a number and anything else is at or above it. -/
theorem le_larger (hy : y.isNaN = false) : y ≤ larger x y := by
  unfold larger
  rw [if_neg (ne_true_of_eq_false hy)]
  split_ifs with hlt
  · have hx := (isNaN_of_lt hlt).2
    exact (le_iff_exact hy hx).mpr ((lt_iff_exact hy hx).mp hlt).le
  · exact (le_iff_exact hy hy).mpr le_rfl

/-- What exceeds one finite number and is not finite exceeds every finite number. -/
theorem lt_of_isFinite {z : Float32} (hx : x.isFinite = false) (hy : y.isFinite = true)
    (hz : z.isFinite = true) (hlt : y < x) : z < x := by
  obtain ⟨hny, hnx⟩ := isNaN_of_lt hlt
  rw [lt_iff_exact hny hnx] at hlt
  rw [lt_iff_exact (isNaN_of_isFinite hz) hnx]
  have hlarge : 2 ^ 128 ≤ |exact x| := by
    by_contra hsmall
    exact Bool.false_ne_true (hx.symm.trans (isFinite_of_abs_exact_lt hnx (not_le.mp hsmall)))
  have hlow := (abs_lt.mp (abs_exact_lt hy)).1
  have hhigh := (abs_lt.mp (abs_exact_lt hz)).2
  rcases le_abs.mp hlarge with hup | hdown
  · exact hhigh.trans_le hup
  · linarith

/-- A NaN passes through a clamp. -/
theorem limit_of_isNaN (hx : x.isNaN = true) : limit x lo hi = x := by
  unfold limit
  rw [if_neg (not_lt_of_isNaN_left hx), if_neg (not_lt_of_isNaN_right hx)]

/-- A number that is kept between bounds that are in order is worth the nearest value between. -/
theorem exact_limit_eq (hx : x.isNaN = false) (hlo : lo.isNaN = false) (hhi : hi.isNaN = false)
    (h : exact lo ≤ exact hi) :
    exact (limit x lo hi) = min (max (exact x) (exact lo)) (exact hi) := by
  unfold limit
  by_cases hbelow : x < lo
  · rw [if_pos hbelow, if_neg (by rw [lt_iff_exact hhi hlo]; exact not_lt.mpr h)]
    rw [lt_iff_exact hx hlo] at hbelow
    rw [max_eq_right hbelow.le, min_eq_left h]
  · simp only [if_neg hbelow]
    rw [lt_iff_exact hx hlo, not_lt] at hbelow
    rw [max_eq_left hbelow]
    by_cases habove : hi < x
    · rw [if_pos habove]
      rw [lt_iff_exact hhi hx] at habove
      rw [min_eq_right habove.le]
    · rw [if_neg habove]
      rw [lt_iff_exact hhi hx, not_lt] at habove
      rw [min_eq_left habove]

/-- A number is kept between bounds that are in order. -/
theorem exact_limit (hx : x.isNaN = false) (hlo : lo.isNaN = false) (hhi : hi.isNaN = false)
    (h : exact lo ≤ exact hi) :
    (limit x lo hi).isNaN = false ∧ exact lo ≤ exact (limit x lo hi) ∧
      exact (limit x lo hi) ≤ exact hi := by
  rw [exact_limit_eq hx hlo hhi h]
  refine ⟨?_, le_min (le_max_right _ _) h, min_le_right _ _⟩
  unfold limit
  dsimp only
  split_ifs <;> assumption

theorem isNaN_zero : (0 : Float32).isNaN = false := isNaN_of_isFinite isFinite_zero

theorem isNaN_one : (1 : Float32).isNaN = false := isNaN_of_isFinite isFinite_one

/-- The bounds zero and one are in order. -/
theorem zero_le_one : (0 : Float32) ≤ 1 :=
  (le_iff_exact isNaN_zero isNaN_one).mpr (by norm_num)

/-- A finite number from zero to `top`. -/
structure Within (top : ℚ) (x : Float32) : Prop where
  finite : x.isFinite = true
  nonneg : 0 ≤ exact x
  le_top : exact x ≤ top

theorem Within.mono {top top' : ℚ} (h : Within top x) (hle : top ≤ top') : Within top' x :=
  ⟨h.finite, h.nonneg, h.le_top.trans hle⟩

theorem within_zero : Within 0 0 := ⟨isFinite_zero, exact_zero.ge, exact_zero.le⟩

theorem within_one_iff : Within 1 x ↔ 0 ≤ x ∧ x ≤ 1 := by
  constructor
  · rintro ⟨hfinite, hlow, hhigh⟩
    have hx := isNaN_of_isFinite hfinite
    rw [le_iff_exact isNaN_zero hx, le_iff_exact hx isNaN_one, exact_zero, exact_one]
    exact ⟨hlow, hhigh⟩
  · rintro ⟨hlow, hhigh⟩
    have hx := (isNaN_of_le hhigh).1
    rw [le_iff_exact isNaN_zero hx, exact_zero] at hlow
    rw [le_iff_exact hx isNaN_one, exact_one] at hhigh
    refine ⟨isFinite_of_abs_exact_lt hx ?_, hlow, hhigh⟩
    rw [abs_of_nonneg hlow]
    exact hhigh.trans_lt (by norm_num)

/-- A number from zero to a finite number is finite. -/
theorem within_of_le (hx : x.isNaN = false) (hlow : 0 ≤ exact x) (hy : y.isFinite = true)
    (hle : exact x ≤ exact y) : Within (exact y) x := by
  refine ⟨isFinite_of_abs_exact_lt hx ?_, hlow, hle⟩
  rw [abs_of_nonneg hlow]
  exact hle.trans_lt (abs_lt.mp (abs_exact_lt hy)).2

theorem Rounds.nonneg {q : ℚ} (h : Rounds x q) (hq : 0 ≤ q) : 0 ≤ exact x := by
  have hlow := (rounds_self isFinite_zero).mono h (exact_zero.trans_le hq)
  rwa [exact_zero] at hlow

/-- The rounding of what is between zero and a finite number is so too. -/
theorem Rounds.within {q : ℚ} (h : Rounds x q) (hq : 0 ≤ q) (hy : y.isFinite = true)
    (hle : q ≤ exact y) : Within (exact y) x :=
  within_of_le h.number (h.nonneg hq) hy (h.mono (rounds_self hy) hle)

/-- A clamp to zero and one changes nothing there. -/
theorem limit_of_within (h : Within 1 x) : limit x 0 1 = x := by
  have hx := isNaN_of_isFinite h.finite
  have hlow : ¬ x < 0 := by
    rw [lt_iff_exact hx isNaN_zero, exact_zero, not_lt]
    exact h.nonneg
  have hhigh : ¬ 1 < x := by
    rw [lt_iff_exact isNaN_one hx, exact_one, not_lt]
    exact h.le_top
  unfold limit
  rw [if_neg hlow]
  exact if_neg hhigh

theorem limit_within (hx : x.isNaN = false) : Within 1 (limit x 0 1) := by
  obtain ⟨hnumber, hlow, hhigh⟩ := exact_limit hx isNaN_zero isNaN_one (by norm_num)
  rw [within_one_iff, le_iff_exact isNaN_zero hnumber, le_iff_exact hnumber isNaN_one]
  exact ⟨hlow, hhigh⟩

/-- A whole number is not below zero. -/
theorem zero_le_ofNat {n : ℕ} (hn : n < 2 ^ 64) : (0 : Float32) ≤ ofNat n := by
  have hrounds := ofNat_rounds hn
  rw [le_iff_exact isNaN_zero hrounds.number, exact_zero]
  exact hrounds.nonneg (Nat.cast_nonneg n)

/-- A positive whole number of 64 binary digits is a finite number from one on. -/
theorem ofNat_positive {n : ℕ} (hpos : 1 ≤ n) (hword : n < 2 ^ 64) :
    (ofNat n).isFinite = true ∧ 1 ≤ exact (ofNat n) := by
  have hrounds := ofNat_rounds hword
  have hword' : (n : ℚ) < 2 ^ 64 := by exact_mod_cast hword
  constructor
  · refine (hrounds.finite (abs_rounded_lt ?_)).1
    rw [Nat.abs_cast]
    linarith
  · have hone := (rounds_self isFinite_one).mono hrounds
    rw [exact_one] at hone
    exact hone (by exact_mod_cast hpos)

end SensorEvents.Single
