import SensorEvents.Proofs.Single.Encoding

/-!
# The order of single-precision numbers

Comparisons look at signs, units and digits. On canonical numbers that is the order of the values,
so the numbers other than NaN are in a linear order up to the two zeros, and NaN is related to
nothing.
-/
namespace SensorEvents.Single

open Float.Model Float.Model.UnpackedFloat

/-- An answer of a comparison is the right one for two values. -/
def Agrees : Option Ordering → ℚ → ℚ → Prop
  | some .lt, p, q => p < q
  | some .eq, p, q => p = q
  | some .gt, p, q => q < p
  | none, _, _ => False

/-- Digits that are counted in a smaller unit are fewer. -/
theorem lt_of_unit_lt {m n : ℕ} {e f : ℤ} (hm : Counted m e) (hn : Counted n f) (h : e < f) :
    (m : ℚ) * 2 ^ e < n * 2 ^ f := by
  have hdigits : (m : ℚ) < 2 ^ (24 : ℤ) := by exact_mod_cast hm.digits
  have hleast : 2 ^ 23 ≤ n := hn.least.resolve_right (by have := hm.unit; omega)
  have hleast' : (2 : ℚ) ^ (23 : ℤ) ≤ n := by exact_mod_cast hleast
  calc (m : ℚ) * 2 ^ e < 2 ^ (24 : ℤ) * 2 ^ e := mul_lt_mul_of_pos_right hdigits (two_zpow_pos e)
    _ = 2 ^ (24 + e) := (zpow_add₀ (by norm_num) ..).symm
    _ ≤ 2 ^ (23 + f) := zpow_le_zpow_right₀ (by norm_num) (by omega)
    _ = 2 ^ (23 : ℤ) * 2 ^ f := zpow_add₀ (by norm_num) ..
    _ ≤ (n : ℚ) * 2 ^ f := mul_le_mul_of_nonneg_right hleast' (two_zpow_pos f).le

theorem agrees_counted {m n : ℕ} {e f : ℤ} (hm : Counted m e) (hn : Counted n f) :
    Agrees (some ((compare e f).then (compare m n))) (m * 2 ^ e) (n * 2 ^ f) := by
  rcases lt_trichotomy e f with hlt | rfl | hgt
  · rw [compare_lt_iff_lt.mpr hlt]
    exact lt_of_unit_lt hm hn hlt
  · rw [compare_eq_iff_eq.mpr rfl]
    have hpos := two_zpow_pos e
    rcases lt_trichotomy m n with hlt | rfl | hgt
    · rw [compare_lt_iff_lt.mpr hlt]
      exact mul_lt_mul_of_pos_right (by exact_mod_cast hlt) hpos
    · rw [compare_eq_iff_eq.mpr rfl]
      exact rfl
    · rw [compare_gt_iff_gt.mpr hgt]
      exact mul_lt_mul_of_pos_right (by exact_mod_cast hgt) hpos
  · rw [compare_gt_iff_gt.mpr hgt]
    exact lt_of_unit_lt hn hm hgt

theorem natCast_mul_zpow_pos {m : ℕ} (e : ℤ) (hm : 0 < m) : (0 : ℚ) < m * 2 ^ e :=
  mul_pos (by exact_mod_cast hm) (two_zpow_pos e)

theorem Agrees.neg {o : Ordering} {p q : ℚ} (h : Agrees (some o) p q) :
    Agrees (some o.swap) (-p) (-q) := by
  cases o with
  | lt => exact neg_lt_neg h
  | eq => exact congrArg Neg.neg h
  | gt => exact neg_lt_neg h

theorem agrees_finite {m n : ℕ} {e f : ℤ} (hm : 0 < m) (hn : 0 < n) (hu : Counted m e)
    (hv : Counted n f) (s t : Sign) :
    Agrees ((finite s m e hm).compare (finite t n f hn)) (value (.finite s m e hm))
      (value (.finite t n f hn)) := by
  have h := agrees_counted hu hv
  have hm' := natCast_mul_zpow_pos e hm
  have hn' := natCast_mul_zpow_pos f hn
  cases s <;> cases t
  · simpa [UnpackedFloat.compare, value, signed] using h.neg
  · simp only [UnpackedFloat.compare, Agrees, value, signed]
    linarith
  · simp only [UnpackedFloat.compare, Agrees, value, signed]
    linarith
  · simpa [UnpackedFloat.compare, value, signed] using h

/-- What is finite lies inside the infinities. -/
theorem agrees_finite_infinity {m : ℕ} {e : ℤ} (hm : 0 < m) (hu : Counted m e) (hr : e ≤ 104)
    (s t : Sign) :
    Agrees ((finite s m e hm).compare (.infinity t)) (value (.finite s m e hm))
      (value (.infinity t)) := by
  obtain ⟨hlow, hhigh⟩ := abs_lt.mp (abs_value_lt hu hr : |value (.finite s m e hm)| < _)
  cases t
  · simpa [UnpackedFloat.compare, Agrees, value, signed] using hlow
  · simpa [UnpackedFloat.compare, Agrees, value, signed] using hhigh

theorem agrees_infinity_finite {n : ℕ} {f : ℤ} (hn : 0 < n) (hv : Counted n f) (hr : f ≤ 104)
    (s t : Sign) :
    Agrees ((infinity s).compare (.finite t n f hn)) (value (.infinity s))
      (value (.finite t n f hn)) := by
  obtain ⟨hlow, hhigh⟩ := abs_lt.mp (abs_value_lt hv hr : |value (.finite t n f hn)| < _)
  cases s
  · simpa [UnpackedFloat.compare, Agrees, value, signed] using hlow
  · simpa [UnpackedFloat.compare, Agrees, value, signed] using hhigh

/-- The comparison of numbers is that of their values. -/
theorem agrees_compare {u v : UnpackedFloat} (hu : Canonical u) (hru : InRange u)
    (hv : Canonical v) (hrv : InRange v) (hnu : u.isNaN = false) (hnv : v.isNaN = false) :
    Agrees (u.compare v) (value u) (value v) := by
  cases u with
  | notANumber => simp [UnpackedFloat.isNaN] at hnu
  | infinity s =>
    cases v with
    | notANumber => simp [UnpackedFloat.isNaN] at hnv
    | infinity t =>
      cases s <;> cases t <;>
        simp [UnpackedFloat.compare, compare, Agrees, value, signed]
    | zero t => cases s <;> simp [UnpackedFloat.compare, Agrees, value, signed]
    | finite t n f hn => exact agrees_infinity_finite hn hv hrv s t
  | zero s =>
    cases v with
    | notANumber => simp [UnpackedFloat.isNaN] at hnv
    | infinity t => cases t <;> simp [UnpackedFloat.compare, Agrees, value, signed]
    | zero t => simp [UnpackedFloat.compare, Agrees, value]
    | finite t n f hn =>
      have hpos := natCast_mul_zpow_pos f hn
      cases t <;> simpa [UnpackedFloat.compare, Agrees, value, signed] using hpos
  | finite s m e hm =>
    cases v with
    | notANumber => simp [UnpackedFloat.isNaN] at hnv
    | infinity t => exact agrees_finite_infinity hm hu hru s t
    | zero t =>
      have hpos := natCast_mul_zpow_pos e hm
      cases s <;> simpa [UnpackedFloat.compare, Agrees, value, signed] using hpos
    | finite t n f hn => exact agrees_finite hm hn hu hv s t

/-- The value of an encoded number. -/
def exact (x : Float32) : ℚ := value x.toModel.unpack

theorem canonical (x : Float32) : Canonical x.toModel.unpack := (unpack_canonical _).1

theorem inRange (x : Float32) : InRange x.toModel.unpack := (unpack_canonical _).2

variable {x y : Float32}

theorem lt_iff_compare : x < y ↔ x.toModel.unpack.compare y.toModel.unpack = some .lt := by
  refine Iff.trans (?_ : x < y ↔ (UnpackedFloat.lt x.toModel.unpack y.toModel.unpack) = true) ?_
  · exact decide_eq_true_iff
  · exact beq_iff_eq

theorem le_iff_compare :
    x ≤ y ↔ (x.toModel.unpack.compare y.toModel.unpack).any (·.isLE) = true :=
  decide_eq_true_iff

theorem isNaN_of_compare {o : Ordering}
    (h : x.toModel.unpack.compare y.toModel.unpack = some o) :
    x.isNaN = false ∧ y.isNaN = false := by
  change x.toModel.unpack.isNaN = false ∧ y.toModel.unpack.isNaN = false
  generalize x.toModel.unpack = u at h
  generalize y.toModel.unpack = v at h
  cases u <;> cases v <;> simp_all [UnpackedFloat.compare, UnpackedFloat.isNaN]

theorem agrees_exact (hx : x.isNaN = false) (hy : y.isNaN = false) :
    Agrees (x.toModel.unpack.compare y.toModel.unpack) (exact x) (exact y) :=
  agrees_compare (canonical x) (inRange x) (canonical y) (inRange y) hx hy

theorem isNaN_of_lt (h : x < y) : x.isNaN = false ∧ y.isNaN = false :=
  isNaN_of_compare (lt_iff_compare.mp h)

theorem isNaN_of_le (h : x ≤ y) : x.isNaN = false ∧ y.isNaN = false := by
  rw [le_iff_compare] at h
  cases ho : x.toModel.unpack.compare y.toModel.unpack with
  | none => simp [ho] at h
  | some o => exact isNaN_of_compare ho

theorem lt_iff_exact (hx : x.isNaN = false) (hy : y.isNaN = false) :
    x < y ↔ exact x < exact y := by
  have h := agrees_exact hx hy
  rw [lt_iff_compare]
  generalize x.toModel.unpack.compare y.toModel.unpack = o at h
  rcases o with _ | (_ | _ | _)
  · exact h.elim
  · simpa using show exact x < exact y from h
  · simpa using (h : exact x = exact y).ge
  · simpa using (h : exact y < exact x).le

theorem le_iff_exact (hx : x.isNaN = false) (hy : y.isNaN = false) :
    x ≤ y ↔ exact x ≤ exact y := by
  have h := agrees_exact hx hy
  rw [le_iff_compare]
  generalize x.toModel.unpack.compare y.toModel.unpack = o at h
  rcases o with _ | (_ | _ | _)
  · exact h.elim
  · simpa using (h : exact x < exact y).le
  · simpa using (h : exact x = exact y).le
  · simpa using show exact y < exact x from h

/-- Finite numbers are those inside the range. -/
theorem abs_exact_le (h : x.isFinite = true) : |exact x| ≤ 2 ^ 128 - 2 ^ 104 := by
  have hcanonical := canonical x
  have hrange := inRange x
  change x.toModel.unpack.isFinite = true at h
  unfold exact
  generalize x.toModel.unpack = u at *
  obtain ⟨s, rfl⟩ | ⟨s, m, e, hm, rfl⟩ := zero_or_finite h
  · norm_num [value]
  · exact abs_value_le hcanonical hrange

theorem abs_exact_lt (h : x.isFinite = true) : |exact x| < 2 ^ 128 :=
  (abs_exact_le h).trans_lt (by norm_num)

/-- A finite number is a whole number of units. -/
theorem exact_digits (h : x.isFinite = true) :
    ∃ n e : ℤ, |n| ≤ 2 ^ 24 ∧ -149 ≤ e ∧ exact x = n * 2 ^ e := by
  have hcanonical := canonical x
  change x.toModel.unpack.isFinite = true at h
  unfold exact
  generalize x.toModel.unpack = u at *
  obtain ⟨s, rfl⟩ | ⟨s, m, e, hm, rfl⟩ := zero_or_finite h
  · exact ⟨0, 0, by norm_num, by norm_num, by simp [value]⟩
  · obtain ⟨hdigits, hunit, -⟩ := (hcanonical : Counted m e)
    cases s with
    | positive => exact ⟨m, e, by rw [Nat.abs_cast]; omega, hunit, by simp [value, signed]⟩
    | negative =>
      refine ⟨-m, e, ?_, hunit, by simp [value, signed]⟩
      rw [abs_neg, Nat.abs_cast]
      omega

theorem isFinite_of_abs_exact_lt (hn : x.isNaN = false) (h : |exact x| < 2 ^ 128) :
    x.isFinite = true := by
  change x.toModel.unpack.isNaN = false at hn
  change x.toModel.unpack.isFinite = true
  unfold exact at h
  generalize x.toModel.unpack = u at *
  cases u with
  | finite s m e hm => rfl
  | zero s => rfl
  | infinity s => cases s <;> simp [value, signed] at h
  | notANumber => simp [UnpackedFloat.isNaN] at hn

theorem isNaN_of_isFinite (h : x.isFinite = true) : x.isNaN = false := by
  change x.toModel.unpack.isFinite = true at h
  change x.toModel.unpack.isNaN = false
  generalize x.toModel.unpack = u at *
  cases u <;> simp_all [UnpackedFloat.isFinite, UnpackedFloat.isNaN]

end SensorEvents.Single
