import SensorEvents.Config.Error
import SensorEvents.Scaling.Segment

/-!
# Crossing speed to intensity

The speed of a crossing, in threshold units per millisecond, becomes an intensity such as a MIDI
velocity. The two speeds of the map have exact intensities; between them it is linear.
-/
namespace SensorEvents

/-- The intensities of the slowest and the fastest crossing. -/
structure VelocityMap where
  minPhysical : Float32
  maxPhysical : Float32
  minOutput : Nat := 1
  maxOutput : Nat := 127

namespace VelocityMap

/-- Finite speeds in order, and intensities in order that are data bytes. -/
def validate (m : VelocityMap) : Accepted Unit :=
  if !m.minPhysical.isFinite || !m.maxPhysical.isFinite || m.minPhysical ≥ m.maxPhysical then
    .error (.physicalVelocity m.minPhysical m.maxPhysical)
  else if m.minOutput > m.maxOutput ∨ m.maxOutput > 127 then
    .error (.velocityOutput m.minOutput m.maxOutput)
  else
    .ok ()

/-- The map between two speeds with the whole range of audible velocities. -/
def between (minPhysical maxPhysical : Float32) : Accepted VelocityMap := do
  let m : VelocityMap := { minPhysical, maxPhysical }
  m.validate
  return m

def withOutput (m : VelocityMap) (minOutput maxOutput : Nat) : Accepted VelocityMap := do
  let m := { m with minOutput, maxOutput }
  m.validate
  return m

/-- The speed of travelling `distance` in `elapsed` milliseconds, counted as at least one. -/
def physical (distance elapsed : Nat) : Float32 :=
  Single.ofNat distance / Single.ofNat (max elapsed 1)

/-- The intensity of a crossing at speed `speed`. -/
def intensity (m : VelocityMap) (speed : Float32) : Checked Nat :=
  if speed ≥ m.maxPhysical then
    .ok m.maxOutput
  else if speed ≤ m.minPhysical then
    .ok m.minOutput
  else do
    let segment := Segment.between m.minPhysical m.maxPhysical (Single.ofNat m.minOutput)
      (Single.ofNat m.maxOutput)
    let mapped ← segment.map speed
    Checked.clamp (Single.toByte mapped) m.minOutput m.maxOutput

end VelocityMap

end SensorEvents
