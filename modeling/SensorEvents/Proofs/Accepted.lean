import Mathlib
import SensorEvents.Config.SensorConfig

/-!
# What acceptance says

Each check of a setting, read as the condition under which it passes. A setting that was accepted
has numbers in order; that they also fit the words they are kept in is not checked but comes with
their types, and is asked for by `Fits` where it matters.
-/
namespace SensorEvents

open Checked (refuse_eq_ok seq_eq_ok)

theorem Checked.eq_ok_of_isOk {ε : Type} {x : Except ε Unit} (h : x.isOk = true) : x = .ok () := by
  cases x with
  | ok _ => rfl
  | error _ => exact Bool.noConfusion h

/-- A step has one result. -/
theorem Checked.ok_unique {ε α : Type} {x : Except ε α} {a b : α} (h : x = .ok a)
    (h' : x = .ok b) : a = b :=
  Except.ok.inj (h.symm.trans h')

theorem Checked.ok_unique_pair {ε α β : Type} {x : Except ε (α × β)} {a a' : α} {b b' : β}
    (h : x = .ok (a, b)) (h' : x = .ok (a', b')) : a = a' ∧ b = b' :=
  Prod.mk.inj (ok_unique h h')

namespace InputRange

/-- A mapped range has both ends, the lower one first; or no range is mapped. -/
def Ordered (r : InputRange) : Prop :=
  match r.minInput, r.maxInput with
  | some low, some high => low < high
  | none, none => True
  | _, _ => False

/-- The ends of a mapped range are readings. -/
def Fits (r : InputRange) : Prop :=
  (∀ low ∈ r.minInput, low ≤ Checked.max32) ∧ ∀ high ∈ r.maxInput, high ≤ Checked.max32

instance (r : InputRange) : Decidable r.Fits := inferInstanceAs (Decidable (_ ∧ _))

theorem validate_eq_ok {r : InputRange} :
    r.validate = .ok () ↔ 0 < r.outputMax ∧ r.outputMax ≤ widest ∧ r.Ordered := by
  unfold validate Ordered
  rw [refuse_eq_ok]
  cases r.minInput <;> cases r.maxInput <;> simp
  all_goals omega

end InputRange

theorem VelocityMap.validate_eq_ok {m : VelocityMap} :
    m.validate = .ok () ↔
      (m.minPhysical.isFinite = true ∧ m.maxPhysical.isFinite = true ∧
        ¬ m.minPhysical ≥ m.maxPhysical) ∧
      m.minOutput ≤ m.maxOutput ∧ m.maxOutput ≤ 127 := by
  unfold validate
  rw [refuse_eq_ok, refuse_eq_ok]
  simp only [Bool.or_eq_true, Bool.not_eq_true', decide_eq_true_eq, not_or, Bool.not_eq_false,
    Nat.not_lt, gt_iff_lt, and_true, and_assoc]

theorem VelocityConfig.validate_eq_ok {c : VelocityConfig} :
    c.validate = .ok () ↔
      c.input.validate = .ok () ∧ c.velocity.validate = .ok () ∧
        c.minNote < c.trigger ∧ c.trigger ≤ c.input.outputMax := by
  unfold validate
  simp only [seq_eq_ok, Checked.throw_eq_error, Checked.error_bind, refuse_eq_ok,
    Checked.pure_eq_ok, ge_iff_le, gt_iff_lt, Nat.not_le, Nat.not_lt, and_true]

theorem ThresholdConfig.validate_eq_ok {c : ThresholdConfig} :
    c.validate = .ok () ↔
      c.input.validate = .ok () ∧
        Checked.saturatingAdd32 c.threshold c.hysteresis < c.input.outputMax ∧
        c.onVelocity ≤ 127 := by
  unfold validate
  simp only [seq_eq_ok, Checked.throw_eq_error, Checked.error_bind, refuse_eq_ok,
    Checked.pure_eq_ok, ge_iff_le, gt_iff_lt, Nat.not_le, Nat.not_lt, and_true]

theorem PressureConfig.validate_eq_ok {c : PressureConfig} :
    c.validate = .ok () ↔
      c.input.validate = .ok () ∧ c.minNote ≤ c.trigger ∧ c.trigger ≤ c.input.outputMax ∧
        ∀ velocity ∈ c.onVelocity, velocity ≤ 127 := by
  unfold validate
  simp only [seq_eq_ok, Checked.throw_eq_error, Checked.error_bind, refuse_eq_ok, gt_iff_lt,
    Nat.not_lt]
  cases c.onVelocity <;> simp

theorem ContinuousConfig.validate_eq_ok {c : ContinuousConfig} :
    c.validate = .ok () ↔ c.input.validate = .ok () := Iff.rfl

theorem checkPrecision_eq_ok {precision : Nat} :
    checkPrecision precision = .ok () ↔ 0 < precision ∧ precision ≤ maxPrecision := by
  unfold checkPrecision
  rw [refuse_eq_ok]
  simp only [gt_iff_lt, not_or, Nat.not_lt, and_true]
  omega

theorem ResponseCurve.validate_eq_ok {c : ResponseCurve} :
    c.validate = .ok () ↔ c.parameter.2.isFinite = true ∧ 0 < c.parameter.2 := by
  unfold validate
  simp

theorem FilterParams.validate_eq_ok {p : FilterParams} :
    p.validate = .ok () ↔
      (0 < p.precision ∧ p.precision ≤ maxPrecision) ∧ (0 < p.smoothing ∧ p.smoothing ≤ 1) ∧
        (0 < p.baselineRate ∧ p.baselineRate ≤ 1) ∧
        (0 < p.outputSmoothing ∧ p.outputSmoothing ≤ 1) ∧
        (p.deltaMax.isFinite = true ∧ 0 < p.deltaMax) ∧ 0 ≤ p.freezeThreshold ∧
        p.curve.validate = .ok () := by
  unfold validate checkCoefficient
  simp only [seq_eq_ok, Checked.throw_eq_error, Checked.error_bind, refuse_eq_ok,
    checkPrecision_eq_ok]
  simp

theorem DirectParams.validate_eq_ok {p : DirectParams} :
    p.validate = .ok () ↔
      (0 < p.inputBits ∧ p.inputBits ≤ 32) ∧ 0 < p.precision ∧ p.precision ≤ maxPrecision := by
  unfold validate
  simp only [Checked.throw_eq_error, Checked.error_bind, refuse_eq_ok, checkPrecision_eq_ok]
  omega

theorem Hysteresis.build_eq_ok {bits inputBits : Nat} {h : Hysteresis} :
    Hysteresis.build bits inputBits = .ok h ↔
      (0 < inputBits ∧ inputBits ≤ 32) ∧ bits < inputBits ∧ { bits, inputBits } = h := by
  unfold build
  rw [refuse_eq_ok, refuse_eq_ok]
  constructor
  · rintro ⟨hin, hlt, heq⟩
    exact ⟨by omega, by omega, Except.ok.inj heq⟩
  · rintro ⟨hin, hlt, rfl⟩
    exact ⟨by omega, by omega, rfl⟩

/-- A filter is built from accepted settings. -/
theorem AdaptiveFilter.build_eq {σ : Type} {p : FilterParams} (hv : p.validate = .ok ())
    (source : σ) : AdaptiveFilter.build source p = .ok { source, params := p } := by
  unfold build
  rw [hv]
  rfl

end SensorEvents
