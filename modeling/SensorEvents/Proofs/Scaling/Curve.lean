import SensorEvents.Proofs.Accepted
import SensorEvents.Proofs.Single.Special

/-!
# Curves and infinite exponentials

A curve takes a signal between zero and one to a signal between zero and one. There is one gap: the
exponential curve divides by the exponential of its factor, and where that is infinite together
with the exponential above it, the quotient is not a number. The clamp behind it lets that through.
-/
namespace SensorEvents

open Single (exact Within)

/-- What the curves rely on: no elementary function makes a NaN of the numbers it is given here,
and logarithms of finite numbers from one on are finite. -/
structure Elementary.Regular [Elementary] : Prop where
  exp_number : ∀ x : Float32, x.isNaN = false → (Elementary.exp x).isNaN = false
  ln_finite : ∀ x : Float32, 1 ≤ x → x.isFinite = true → (Elementary.ln x).isFinite = true
  power_number : ∀ x gamma : Float32, 0 ≤ x → x ≤ 1 → gamma.isFinite = true → 0 < gamma →
    (Elementary.power x gamma).isNaN = false

namespace ResponseCurve

variable [Elementary] {c : ResponseCurve} {x : Float32}

/-- Both exponentials of the curve are infinite. -/
def Overflows (c : ResponseCurve) (x : Float32) : Prop :=
  match c with
  | exponential factor =>
    (Elementary.exp factor).isFinite = false ∧ (Elementary.exp (factor * x)).isFinite = false
  | _ => False

theorem exponential_shape (h : Elementary.Regular) {factor : Float32}
    (hfactor : factor.isFinite = true) (hx : x.isFinite = true) :
    ((exponential factor).shape x).isNaN = true ↔ (exponential factor).Overflows x := by
  obtain ⟨hdenominator, hbelow⟩ :=
    Single.sub_one_spec (h.exp_number factor (Single.isNaN_of_isFinite hfactor))
  obtain ⟨hnumerator, habove⟩ :=
    Single.sub_one_spec (h.exp_number (factor * x) (Single.mul_rounds hfactor hx).number)
  unfold shape Overflows
  dsimp only
  split_ifs with hsmall
  · have hfinite := Single.isFinite_of_abs_lt hdenominator hsmall
    rw [hbelow] at hfinite
    refine iff_of_false (ne_true_of_eq_false (Single.isNaN_of_isFinite hx)) ?_
    exact fun hover => ne_true_of_eq_false hover.1 hfinite
  · rw [Single.isNaN_div_iff hnumerator hdenominator
      (Single.exact_ne_zero_of_abs hdenominator hsmall), habove, hbelow]
    exact and_comm

theorem logarithmic_shape (h : Elementary.Regular) {factor : Float32}
    (hfactor : factor.isFinite = true) (hpos : 0 < factor) (hx : Within 1 x) :
    ((logarithmic factor).shape x).isNaN = false := by
  have hpositive : 0 < exact factor := by
    simpa using (Single.lt_iff_exact Single.isNaN_zero (Single.isNaN_of_isFinite hfactor)).mp hpos
  have hnonneg := hx.nonneg
  have hproduct : Within (exact factor) (factor * x) :=
    (Single.mul_rounds hfactor hx.finite).within (by positivity) hfactor
      (mul_le_of_le_one_right hpositive.le hx.le_top)
  obtain ⟨hfinite, hone⟩ := Single.one_add hproduct.finite hproduct.nonneg
  obtain ⟨hfinite', hone'⟩ := Single.one_add hfactor hpositive.le
  have hnumerator := h.ln_finite _ hone hfinite
  have hdenominator := h.ln_finite _ hone' hfinite'
  unfold shape
  dsimp only
  split_ifs with hsmall
  · exact Single.isNaN_of_isFinite hx.finite
  · have hne := Single.exact_ne_zero_of_abs (Single.isNaN_of_isFinite hdenominator) hsmall
    exact (Single.div_rounds hnumerator hdenominator hne).number

/-- The formula of an accepted curve gives a number, except where it overflows. -/
theorem shape_isNaN_iff (h : Elementary.Regular) (hv : c.validate = .ok ()) (hx : Within 1 x) :
    (c.shape x).isNaN = true ↔ c.Overflows x := by
  obtain ⟨hfinite, hpos⟩ := validate_eq_ok.mp hv
  cases c with
  | power gamma =>
    obtain ⟨hlow, hhigh⟩ := Single.within_one_iff.mp hx
    refine iff_of_false (ne_true_of_eq_false ?_) id
    unfold shape
    dsimp only
    split_ifs
    · exact Single.isNaN_of_isFinite hx.finite
    · exact h.power_number x gamma hlow hhigh hfinite hpos
  | exponential factor => exact exponential_shape h hfinite hx.finite
  | logarithmic factor =>
    exact iff_of_false (ne_true_of_eq_false (logarithmic_shape h hfinite hpos hx)) id

/-- An accepted curve keeps signals between zero and one, except where it overflows. -/
theorem apply_spec (h : Elementary.Regular) (hv : c.validate = .ok ()) (hx : Within 1 x) :
    ((c.apply x).isNaN = true ↔ c.Overflows x) ∧ (¬ c.Overflows x → Within 1 (c.apply x)) := by
  have hshape := shape_isNaN_iff h hv hx
  unfold apply
  rw [Single.limit_of_within hx]
  by_cases hover : c.Overflows x
  · rw [Single.limit_of_isNaN (hshape.mpr hover)]
    exact ⟨hshape, absurd hover⟩
  · have hwithin := Single.limit_within (Bool.eq_false_iff.mpr (mt hshape.mp hover))
    refine ⟨iff_of_false ?_ hover, fun _ => hwithin⟩
    exact ne_true_of_eq_false (Single.isNaN_of_isFinite hwithin.finite)

end ResponseCurve

end SensorEvents
