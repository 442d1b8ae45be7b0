import SensorEvents.Single.Arithmetic

/-!
# Linear interpolation of signals

A `Segment` maps one interval of signals linearly to another. Its slope is computed once. An input
interval that is narrower than the rounding unit of one has slope zero, so all of it goes to
`outMin`.
-/
namespace SensorEvents

/-- A linear map given by a point and a slope. -/
structure Segment where
  inMin : Float32
  outMin : Float32
  outMax : Float32
  slope : Float32
  clamped : Bool

namespace Segment

/-- The segment from `(inMin, outMin)` to `(inMax, outMax)`, kept inside its output interval. -/
def between (inMin inMax outMin outMax : Float32) : Segment :=
  let width := inMax - inMin
  let slope := if width.abs < Single.epsilon then 0 else (outMax - outMin) / width
  { inMin, outMin, outMax, slope, clamped := true }

/-- The segment with its output kept inside the output interval, or extended beyond it. -/
def withClamp (s : Segment) (clamped : Bool) : Segment := { s with clamped }

/-- The signal that `x` is mapped to. -/
def map (s : Segment) (x : Float32) : Checked Float32 :=
  let y := s.outMin + (x - s.inMin) * s.slope
  if s.clamped then
    Single.clamp y (Single.smaller s.outMin s.outMax) (Single.larger s.outMin s.outMax)
  else
    .ok y

end Segment

end SensorEvents
