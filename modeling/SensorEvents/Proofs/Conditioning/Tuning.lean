import SensorEvents.Proofs.Conditioning.Faultless
import SensorEvents.Proofs.Conditioning.Overflow

/-!
# Tuning a filter at work

The setters of a filter repair what they are given: a threshold below zero is zero, a full scale
that is too small is the least one, and a curve that is not accepted is ignored. One thing gets
through. A full scale without end is above the least one and is taken, and such settings are not
accepted; they are again as soon as any other full scale is set.
-/
namespace SensorEvents

/-- A setting of a filter that is at work. -/
inductive FilterSetting where
  | pollInterval (interval : Nat)
  | freezeThreshold (threshold : Float32)
  | deltaMax (deltaMax : Float32)
  | curve (curve : ResponseCurve)

/-- What a filter that is tuned is told. -/
inductive TunedCall where
  | call (call : FilterCall)
  | set (setting : FilterSetting)

/-- The full scale that a call sets. -/
def TunedCall.deltaMax? : TunedCall → Option Float32
  | set (.deltaMax deltaMax) => some deltaMax
  | _ => none

/-- The full scale that was set last. -/
def lastDeltaMax? (calls : List TunedCall) : Option Float32 :=
  (calls.filterMap TunedCall.deltaMax?).getLast?

/-- Above every finite number. -/
def Single.Endless (x : Float32) : Prop := x.isFinite = false ∧ 0 < x

instance (x : Float32) : Decidable (Single.Endless x) := inferInstanceAs (Decidable (_ ∧ _))

namespace Single

theorem zero_lt_epsilon : 0 < epsilon := by decide +kernel

variable {x : Float32}

theorem Endless.epsilon_lt (h : Endless x) : epsilon < x :=
  lt_of_isFinite h.1 isFinite_zero isFinite_epsilon h.2

theorem isFinite_larger_epsilon : (larger x epsilon).isFinite = true ↔ ¬ Endless x := by
  unfold larger
  rw [if_neg (ne_true_of_eq_false (isNaN_of_isFinite isFinite_epsilon))]
  split_ifs with hlt
  · constructor
    · exact fun hfinite h => Bool.false_ne_true (h.1.symm.trans hfinite)
    · intro h
      by_contra hfinite
      rw [Bool.not_eq_true] at hfinite
      exact h ⟨hfinite, lt_of_isFinite hfinite isFinite_epsilon isFinite_zero hlt⟩
  · exact iff_of_true isFinite_epsilon fun h => hlt h.epsilon_lt

theorem Endless.larger_epsilon (h : Endless x) : larger x epsilon = x := by
  unfold larger
  rw [if_neg (ne_true_of_eq_false (isNaN_of_isFinite isFinite_epsilon)), if_pos h.epsilon_lt]

theorem zero_lt_larger_epsilon (x : Float32) : 0 < larger x epsilon := by
  have hle := le_larger (x := x) (isNaN_of_isFinite isFinite_epsilon)
  obtain ⟨hepsilon, hlarger⟩ := isNaN_of_le hle
  rw [lt_iff_exact isNaN_zero hlarger]
  exact ((lt_iff_exact isNaN_zero hepsilon).mp zero_lt_epsilon).trans_le
    ((le_iff_exact hepsilon hlarger).mp hle)

end Single

namespace FilterParams

/-- Settings that are accepted but for their full scale, which is only known to be positive. -/
structure Tuned (p : FilterParams) : Prop where
  precision : 0 < p.precision ∧ p.precision ≤ maxPrecision
  smoothing : 0 < p.smoothing ∧ p.smoothing ≤ 1
  baselineRate : 0 < p.baselineRate ∧ p.baselineRate ≤ 1
  outputSmoothing : 0 < p.outputSmoothing ∧ p.outputSmoothing ≤ 1
  deltaMax : 0 < p.deltaMax
  freezeThreshold : 0 ≤ p.freezeThreshold
  curve : p.curve.validate = .ok ()

theorem tuned_of_validate {p : FilterParams} (h : p.validate = .ok ()) : p.Tuned := by
  obtain ⟨hprecision, hsmoothing, hrate, houtput, ⟨-, hdelta⟩, hfreeze, hcurve⟩ :=
    validate_eq_ok.mp h
  exact ⟨hprecision, hsmoothing, hrate, houtput, hdelta, hfreeze, hcurve⟩

namespace Tuned

variable {p : FilterParams}

theorem validate_iff (h : p.Tuned) : p.validate = .ok () ↔ p.deltaMax.isFinite = true := by
  rw [validate_eq_ok]
  constructor
  · rintro ⟨-, -, -, -, ⟨hfinite, -⟩, -⟩
    exact hfinite
  · intro hfinite
    exact ⟨h.precision, h.smoothing, h.baselineRate, h.outputSmoothing, ⟨hfinite, h.deltaMax⟩,
      h.freezeThreshold, h.curve⟩

theorem validate_eq_error (h : p.Tuned) (hinfinite : p.deltaMax.isFinite = false) :
    p.validate = .error (.notPositive "delta_max" p.deltaMax) := by
  unfold validate checkCoefficient
  simp [checkPrecision_eq_ok.mpr h.precision, h.smoothing, h.baselineRate, h.outputSmoothing,
    hinfinite]

end Tuned

end FilterParams

namespace AdaptiveFilter

variable {σ : Type}

def change (f : AdaptiveFilter σ) : FilterSetting → AdaptiveFilter σ
  | .pollInterval interval => f.setPollInterval interval
  | .freezeThreshold threshold => f.setFreezeThreshold threshold
  | .deltaMax deltaMax => f.setDeltaMax deltaMax
  | .curve curve => f.setCurve curve

theorem change_tuned {f : AdaptiveFilter σ} (h : f.params.Tuned) (setting : FilterSetting) :
    (f.change setting).params.Tuned := by
  cases setting with
  | pollInterval interval => exact { h with }
  | freezeThreshold threshold =>
    exact { h with freezeThreshold := Single.le_larger Single.isNaN_zero }
  | deltaMax deltaMax => exact { h with deltaMax := Single.zero_lt_larger_epsilon deltaMax }
  | curve curve =>
    change (f.params.withCurve curve).Tuned
    unfold FilterParams.withCurve
    cases hcurve : curve.validate with
    | ok _ => exact { h with curve := hcurve }
    | error _ => exact h

/-- The full scale after a change. -/
theorem deltaMax_change (f : AdaptiveFilter σ) (setting : FilterSetting) :
    (f.change setting).params.deltaMax =
      (((TunedCall.set setting).deltaMax?.map (Single.larger · Single.epsilon)).getD
        f.params.deltaMax) := by
  cases setting with
  | curve curve =>
    change (f.params.withCurve curve).deltaMax = f.params.deltaMax
    unfold FilterParams.withCurve
    split <;> rfl
  | _ => rfl

variable [Source σ] [Elementary]

def tune (f : AdaptiveFilter σ) : TunedCall → AdaptiveFilter σ
  | .call call => f.call call
  | .set setting => f.change setting

/-- Carry out calls and changes one after the other. -/
def tuneAll (f : AdaptiveFilter σ) : List TunedCall → AdaptiveFilter σ
  | [] => f
  | call :: calls => (f.tune call).tuneAll calls

theorem call_params (f : AdaptiveFilter σ) (c : FilterCall) : (f.call c).params = f.params := by
  cases c with
  | seed => rfl
  | resetBaseline =>
    change f.resetBaseline.params = f.params
    unfold resetBaseline
    split_ifs <;> rfl
  | poll now => exact f.poll_params now
  | evaluate => rfl

theorem tune_tuned {f : AdaptiveFilter σ} (h : f.params.Tuned) (c : TunedCall) :
    (f.tune c).params.Tuned := by
  cases c with
  | call c => exact (f.call_params c).symm ▸ h
  | set setting => exact change_tuned h setting

theorem tuneAll_tuned {f : AdaptiveFilter σ} (h : f.params.Tuned) (calls : List TunedCall) :
    (f.tuneAll calls).params.Tuned := by
  induction calls generalizing f with
  | nil => exact h
  | cons c calls ih => exact ih (tune_tuned h c)

theorem deltaMax_tune (f : AdaptiveFilter σ) (c : TunedCall) :
    (f.tune c).params.deltaMax =
      ((c.deltaMax?.map (Single.larger · Single.epsilon)).getD f.params.deltaMax) := by
  cases c with
  | call c => exact congrArg FilterParams.deltaMax (f.call_params c)
  | set setting => exact f.deltaMax_change setting

/-- The full scale is that of the start, or the one that was set last. -/
theorem deltaMax_tuneAll (f : AdaptiveFilter σ) (calls : List TunedCall) :
    (f.tuneAll calls).params.deltaMax =
      ((lastDeltaMax? calls).map (Single.larger · Single.epsilon)).getD f.params.deltaMax := by
  induction calls generalizing f with
  | nil => rfl
  | cons c calls ih =>
    rw [tuneAll, ih, deltaMax_tune]
    unfold lastDeltaMax?
    cases hset : c.deltaMax? with
    | none => rw [List.filterMap_cons_none hset]; rfl
    | some deltaMax =>
      rw [List.filterMap_cons_some hset, List.getLast?_cons]
      cases (calls.filterMap TunedCall.deltaMax?).getLast? <;> rfl

/-- After any calls and changes to a filter with accepted settings: the settings are accepted as
long as the full scale that was set last has an end, and otherwise the full scale is refused. -/
theorem tuned_accepted_iff {p : FilterParams} (hv : p.validate = .ok ()) (source : σ)
    (calls : List TunedCall) :
    ∃ f, build source p = .ok f ∧
      ((f.tuneAll calls).params.validate = .ok () ↔
        ∀ deltaMax ∈ lastDeltaMax? calls, ¬ Single.Endless deltaMax) ∧
      ∀ deltaMax ∈ lastDeltaMax? calls, Single.Endless deltaMax →
        (f.tuneAll calls).params.validate = .error (.notPositive "delta_max" deltaMax) := by
  have htuned : (tuneAll { source, params := p } calls).params.Tuned :=
    tuneAll_tuned (FilterParams.tuned_of_validate hv) calls
  have hdelta := deltaMax_tuneAll { source, params := p } calls
  have hfinite := (FilterParams.validate_eq_ok.mp hv).2.2.2.2.1.1
  refine ⟨_, build_eq hv source, ?_, ?_⟩
  · rw [htuned.validate_iff, hdelta]
    cases lastDeltaMax? calls with
    | none => exact iff_of_true hfinite nofun
    | some deltaMax => simpa using Single.isFinite_larger_epsilon
  · intro deltaMax hlast hendless
    rw [Option.mem_def.mp hlast, Option.map_some, Option.getD_some, hendless.larger_epsilon]
      at hdelta
    rw [htuned.validate_eq_error (hdelta ▸ hendless.1), hdelta]

end AdaptiveFilter

theorem FilterParams.default_accepted : ({} : FilterParams).validate = .ok () :=
  Checked.eq_ok_of_isOk (by decide +kernel)

/-- Settings that are repaired, ignored or taken, the full scale without end for a while. -/
def detour : List TunedCall :=
  [.call .seed, .set (.curve (.power 0)), .set (.deltaMax (Float32.ofBits 0x7F800000)),
    .call (.poll 60), .set (.freezeThreshold (-1)), .set (.deltaMax (0 / 0)), .set (.pollInterval 0)]

theorem detour_accepted :
    letI := Elementary.coarse
    ({} : FilterParams).validate = .ok () ∧
      ∃ f, AdaptiveFilter.build (Scripted.ofList [100]) {} = .ok f ∧
        (f.tuneAll detour).params.validate = .ok () :=
  letI := Elementary.coarse
  have ⟨f, hbuild, haccepted, _⟩ :=
    AdaptiveFilter.tuned_accepted_iff FilterParams.default_accepted (Scripted.ofList [100]) detour
  ⟨FilterParams.default_accepted, f, hbuild, haccepted.mpr (by decide +kernel)⟩

/-- A full scale without end is taken, although such settings are not accepted. -/
theorem endless_scale_taken :
    letI := Elementary.coarse
    let f : AdaptiveFilter Scripted := { source := .ofList [100], params := {} }
    let tuned := f.tuneAll [.call .seed, .set (.deltaMax (Float32.ofBits 0x7F800000))]
    AdaptiveFilter.build (Scripted.ofList [100]) {} = .ok f ∧ tuned.params.validate ≠ .ok () := by
  intro f tuned
  constructor
  · exact AdaptiveFilter.build_eq FilterParams.default_accepted _
  · intro haccepted
    have hrefused : tuned.params.validate.isOk = false := by decide +kernel
    rw [haccepted] at hrefused
    cases hrefused

end SensorEvents
