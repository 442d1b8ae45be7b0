import SensorEvents.Proofs.Single.Selection

/-!
# Infinities and NaN

NaN goes through every operation. Between numbers it arises from a difference of infinities, from
a quotient of infinities or zeros and from an infinity times zero, and rounding to a whole number
takes it to zero. A quotient by an infinity is zero; what is not tiny has a least distance from zero.
-/
namespace SensorEvents.Single

open Float.Model Float.Model.UnpackedFloat

variable {x y : Float32}

theorem isNaN_pack {u : UnpackedFloat} (h : Canonical u) :
    (Float32.ofModel (.pack u)).isNaN = u.isNaN :=
  isNaN_unpack_pack h

theorem isFinite_pack_infinity (s : Sign) : (Float32.ofModel (.pack (.infinity s))).isFinite = false :=
  congrArg UnpackedFloat.isFinite (unpack_packComponents s (-1#8) 0#23)

theorem unpack_of_isNaN (hx : x.isNaN = true) : x.toModel.unpack = .notANumber := isNaN_iff.mp hx

theorem exact_of_isNaN (h : x.isNaN = true) : exact x = 0 := by
  unfold exact
  rw [unpack_of_isNaN h]
  rfl

theorem unpack_of_infinite (hx : x.isNaN = false) (hfinite : x.isFinite = false) :
    ∃ s, x.toModel.unpack = .infinity s := by
  change x.toModel.unpack.isNaN = false at hx
  change x.toModel.unpack.isFinite = false at hfinite
  cases hu : x.toModel.unpack with
  | infinity s => exact ⟨s, rfl⟩
  | notANumber => simp [hu, UnpackedFloat.isNaN] at hx
  | _ => simp [hu, UnpackedFloat.isFinite] at hfinite

theorem isNaN_mul_left (hx : x.isNaN = true) : (x * y).isNaN = true := by
  change (Float32.ofModel (.pack (.mul .binary32 x.toModel.unpack y.toModel.unpack))).isNaN = true
  rw [unpack_of_isNaN hx]
  exact isNaN_pack (u := .notANumber) trivial

theorem isNaN_add_left (hx : x.isNaN = true) : (x + y).isNaN = true := by
  change (Float32.ofModel (.pack (.add .binary32 x.toModel.unpack y.toModel.unpack))).isNaN = true
  rw [unpack_of_isNaN hx]
  exact isNaN_pack (u := .notANumber) trivial

theorem isNaN_add_right (hy : y.isNaN = true) : (x + y).isNaN = true := by
  change (Float32.ofModel (.pack (.add .binary32 x.toModel.unpack y.toModel.unpack))).isNaN = true
  rw [unpack_of_isNaN hy]
  cases x.toModel.unpack <;> exact isNaN_pack (u := .notANumber) trivial

/-- One less than a number is a number, and infinite only if the number is. -/
theorem sub_one_spec (hx : x.isNaN = false) :
    (x - 1).isNaN = false ∧ (x - 1).isFinite = x.isFinite := by
  cases hfinite : x.isFinite with
  | true =>
    have hrounds := sub_rounds hfinite isFinite_one
    have hrange := abs_exact_le hfinite
    have htriangle := abs_sub (exact x) 1
    rw [abs_one] at htriangle
    rw [exact_one] at hrounds
    exact ⟨hrounds.number, (hrounds.finite (abs_rounded_lt (by linarith))).1⟩
  | false =>
    obtain ⟨s, hu⟩ := unpack_of_infinite hx hfinite
    have hsub : x - 1 = Float32.ofModel (.pack (.infinity s)) := by
      change Float32.ofModel (.pack (.sub .binary32 x.toModel.unpack (1 : Float32).toModel.unpack)) = _
      obtain ⟨t, hv⟩ | ⟨t, n, f, hn, hv⟩ := zero_or_finite (u := (1 : Float32).toModel.unpack)
        isFinite_one <;> rw [hu, hv] <;> rfl
    rw [hsub]
    exact ⟨isNaN_pack (u := .infinity s) trivial, isFinite_pack_infinity s⟩

/-- One more than a finite number from zero on is finite, and at least one. -/
theorem one_add (hx : x.isFinite = true) (hlow : 0 ≤ exact x) :
    (1 + x).isFinite = true ∧ 1 ≤ 1 + x := by
  have hrounds := add_rounds isFinite_one hx
  have hrange := (abs_le.mp (abs_exact_le hx)).2
  constructor
  · refine (hrounds.finite (abs_rounded_lt ?_)).1
    rw [exact_one, abs_of_nonneg (by positivity)]
    linarith
  · rw [le_iff_exact isNaN_one hrounds.number]
    refine (rounds_self isFinite_one).mono hrounds ?_
    linarith

/-- A quotient of numbers, not by zero, is a number unless both are infinite. -/
theorem isNaN_div_iff (hx : x.isNaN = false) (hy : y.isNaN = false) (hne : exact y ≠ 0) :
    (x / y).isNaN = true ↔ x.isFinite = false ∧ y.isFinite = false := by
  have hdiv : x / y = Float32.ofModel (.pack (.div .binary32 x.toModel.unpack y.toModel.unpack)) :=
    rfl
  cases hfx : x.isFinite <;> cases hfy : y.isFinite
  · obtain ⟨s, hu⟩ := unpack_of_infinite hx hfx
    obtain ⟨t, hv⟩ := unpack_of_infinite hy hfy
    rw [hdiv, hu, hv]
    exact iff_of_true (isNaN_pack (u := .notANumber) trivial) ⟨rfl, rfl⟩
  · obtain ⟨s, hu⟩ := unpack_of_infinite hx hfx
    refine iff_of_false (ne_true_of_eq_false ?_) fun h => Bool.noConfusion h.2
    obtain ⟨t, hv⟩ | ⟨t, n, f, hn, hv⟩ := zero_or_finite hfy <;> rw [hdiv, hu, hv] <;>
      exact isNaN_pack (u := .infinity (s / t)) trivial
  · obtain ⟨t, hv⟩ := unpack_of_infinite hy hfy
    refine iff_of_false (ne_true_of_eq_false ?_) fun h => Bool.noConfusion h.1
    obtain ⟨s, hu⟩ | ⟨s, m, e, hm, hu⟩ := zero_or_finite hfx <;> rw [hdiv, hu, hv] <;>
      exact isNaN_pack (u := .zero (s / t)) trivial
  · exact iff_of_false (ne_true_of_eq_false (div_rounds hfx hfy hne).number)
      fun h => Bool.noConfusion h.1

/-- A finite number divided by an infinity is zero. -/
theorem div_infinite (hx : x.isFinite = true) (hy : y.isNaN = false)
    (hinfinite : y.isFinite = false) : (x / y).isFinite = true ∧ exact (x / y) = 0 := by
  have hdiv : x / y = Float32.ofModel (.pack (.div .binary32 x.toModel.unpack y.toModel.unpack)) :=
    rfl
  obtain ⟨t, hv⟩ := unpack_of_infinite hy hinfinite
  have hrounds : Rounds (x / y) 0 := by
    obtain ⟨s, hu⟩ | ⟨s, m, e, hm, hu⟩ := zero_or_finite hx <;> rw [hdiv, hu, hv] <;>
      exact rounds_of_result (zero_result (s / t))
  obtain ⟨hfinite, hexact⟩ := hrounds.finite (by simp)
  exact ⟨hfinite, hexact.trans rounded_zero⟩

/-- What is not finite is not a number any more when it is multiplied by zero. -/
theorem isNaN_mul_zero (hx : x.isFinite = false) (hy : y.isFinite = true) (hzero : exact y = 0) :
    (x * y).isNaN = true := by
  cases hnan : x.isNaN with
  | true => exact isNaN_mul_left hnan
  | false =>
    obtain ⟨s, hu⟩ := unpack_of_infinite hnan hx
    change value y.toModel.unpack = 0 at hzero
    change (Float32.ofModel (.pack (.mul .binary32 x.toModel.unpack y.toModel.unpack))).isNaN = true
    obtain ⟨t, hv⟩ | ⟨t, n, f, hn, hv⟩ := zero_or_finite hy
    · rw [hu, hv]
      exact isNaN_pack (u := .notANumber) trivial
    · have hpos := natCast_mul_zpow_pos f hn
      rw [hv, value] at hzero
      cases t <;> simp only [signed] at hzero <;> linarith

theorem Canonical.abs {u : UnpackedFloat} (h : Canonical u) : Canonical u.abs := by
  cases u <;> exact h

theorem value_abs (u : UnpackedFloat) : value u.abs = |value u| := by
  cases u with
  | notANumber => exact abs_zero.symm
  | zero s => exact abs_zero.symm
  | infinity s => cases s <;> simp [UnpackedFloat.abs, value, signed]
  | finite s m e hm =>
    have hpos := natCast_mul_zpow_pos e hm
    rw [value, abs_signed, abs_of_pos hpos]
    exact one_mul _

theorem isNaN_abs (x : Float32) : x.abs.isNaN = x.isNaN := by
  refine (isNaN_pack (canonical x).abs).trans ?_
  change x.toModel.unpack.abs.isNaN = x.toModel.unpack.isNaN
  cases x.toModel.unpack <;> rfl

theorem abs_exact_le_top (x : Float32) : |exact x| ≤ 2 ^ 128 := by
  by_cases hfinite : x.isFinite = true
  · exact (abs_exact_lt hfinite).le
  by_cases hnan : x.isNaN = true
  · rw [exact_of_isNaN hnan, abs_zero]
    norm_num
  obtain ⟨s, hu⟩ := unpack_of_infinite (Bool.eq_false_iff.mpr hnan) (Bool.eq_false_iff.mpr hfinite)
  rw [exact, hu, value, abs_signed]
  norm_num

/-- The distance of a number to zero is exact. -/
theorem exact_abs (x : Float32) : exact x.abs = |exact x| := by
  refine (value_unpack_pack (canonical x).abs).trans ?_
  rw [value_abs]
  exact saturated_of_abs_le ((abs_abs _).trans_le (abs_exact_le_top x))

theorem epsilon_eq : epsilon = 1 / ofNat (2 ^ 23) := by decide +kernel

theorem isFinite_epsilon : epsilon.isFinite = true := by decide +kernel

theorem exact_epsilon : exact epsilon = 1 / 2 ^ 23 := by
  obtain ⟨hfinite, hexact⟩ := exact_ofNat (n := 2 ^ 23) (by norm_num)
  have hrounds := div_rounds isFinite_one hfinite (by rw [hexact]; norm_num)
  have hself := rounded_eq_self (n := 1) (e := -23) (by norm_num) (by norm_num)
  have hvalue : exact 1 / exact (ofNat (2 ^ 23)) = ((1 : ℤ) : ℚ) * 2 ^ (-23 : ℤ) := by
    rw [exact_one, hexact]
    norm_num
  rw [← epsilon_eq, hvalue] at hrounds
  rw [(hrounds.finite (by rw [hself]; norm_num)).2, hself]
  norm_num

theorem abs_lt_epsilon_iff (hx : x.isNaN = false) : x.abs < epsilon ↔ |exact x| < 1 / 2 ^ 23 := by
  rw [lt_iff_exact ((isNaN_abs x).trans hx) (isNaN_of_isFinite isFinite_epsilon), exact_abs,
    exact_epsilon]

/-- What is not tiny is as far from zero as the number after one is from one. -/
theorem le_abs_exact (hx : x.isNaN = false) (h : ¬ x.abs < epsilon) : 1 / 2 ^ 23 ≤ |exact x| := by
  rw [abs_lt_epsilon_iff hx, not_lt] at h
  exact h

theorem exact_ne_zero_of_abs (hx : x.isNaN = false) (h : ¬ x.abs < epsilon) : exact x ≠ 0 := by
  intro hzero
  have hfar := le_abs_exact hx h
  rw [hzero, abs_zero] at hfar
  norm_num at hfar

theorem isFinite_of_abs_lt (hx : x.isNaN = false) (h : x.abs < epsilon) : x.isFinite = true := by
  rw [abs_lt_epsilon_iff hx] at h
  exact isFinite_of_abs_exact_lt hx (h.trans (by norm_num))

theorem nearestNat_of_isNaN (hx : x.isNaN = true) (bound : ℕ) : nearestNat x bound = 0 := by
  have hword : x.toUInt32 = 0 := by
    change x.toModel.unpack.toUInt32 = 0
    rw [unpack_of_isNaN hx]
    rfl
  have hrest : ¬ x - x.toUInt32.toFloat32 ≥ 0.5 := by
    intro h
    have hsub : (x - x.toUInt32.toFloat32).isNaN = true := by
      change (Float32.ofModel (.pack (.sub .binary32 x.toModel.unpack _))).isNaN = true
      rw [unpack_of_isNaN hx]
      exact isNaN_pack (u := .notANumber) trivial
    exact absurd hsub (ne_true_of_eq_false (isNaN_of_le h).2)
  unfold nearestNat
  dsimp only
  rw [if_neg hrest, hword]
  exact Nat.min_zero bound

end SensorEvents.Single
