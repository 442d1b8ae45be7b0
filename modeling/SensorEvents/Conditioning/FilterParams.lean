import SensorEvents.Scaling.BitDepth
import SensorEvents.Scaling.ResponseCurve

/-!
# Settings of the adaptive filter

`validate` accepts the settings a filter may start with. The setters that tune a running filter
raise a value that is too small and replace a NaN, or leave the setting as it was.
-/
namespace SensorEvents

/-- The widest value a conditioner produces, in bits. -/
def maxPrecision : Nat := 16

structure FilterParams where
  /-- Bits of the output. -/
  precision : Nat := 7
  /-- Least time between polls. -/
  pollInterval : Nat := 50
  /-- Weight of a new reading in the first smoothing stage. -/
  smoothing : Float32 := 0.05
  /-- Weight of the smoothed reading in the baseline. -/
  baselineRate : Float32 := 0.01
  /-- Distance from the baseline at which the baseline stops following. -/
  freezeThreshold : Float32 := 100
  /-- Distance from the baseline that is full scale. -/
  deltaMax : Float32 := 4000
  curve : ResponseCurve := .linear
  /-- Weight of a new output in the second smoothing stage. -/
  outputSmoothing : Float32 := 0.2

/-- An output has at least one bit and at most `maxPrecision`. -/
def checkPrecision (precision : Nat) : Accepted Unit :=
  if precision = 0 ∨ precision > maxPrecision then .error (.precision precision maxPrecision)
  else .ok ()

namespace FilterParams

/-- A weight is above zero and at most one. -/
def checkCoefficient (name : String) (value : Float32) : Accepted Unit :=
  if value > 0 && value ≤ 1 then .ok () else .error (.coefficient name value)

def validate (p : FilterParams) : Accepted Unit := do
  checkPrecision p.precision
  checkCoefficient "smoothing" p.smoothing
  checkCoefficient "baseline_rate" p.baselineRate
  checkCoefficient "output_smoothing" p.outputSmoothing
  if !(p.deltaMax.isFinite && p.deltaMax > 0) then
    throw (.notPositive "delta_max" p.deltaMax)
  if !(p.freezeThreshold ≥ 0) then
    throw (.freezeThreshold p.freezeThreshold)
  p.curve.validate

/-- Set the freeze threshold, a negative one or NaN being zero. -/
def withFreezeThreshold (p : FilterParams) (threshold : Float32) : FilterParams :=
  { p with freezeThreshold := Single.larger threshold 0 }

/-- Set the distance that is full scale, which stays positive. -/
def withDeltaMax (p : FilterParams) (deltaMax : Float32) : FilterParams :=
  { p with deltaMax := Single.larger deltaMax Single.epsilon }

/-- Set the curve; one that is not accepted is ignored. -/
def withCurve (p : FilterParams) (curve : ResponseCurve) : FilterParams :=
  match curve.validate with
  | .ok () => { p with curve }
  | .error _ => p

end FilterParams

end SensorEvents
