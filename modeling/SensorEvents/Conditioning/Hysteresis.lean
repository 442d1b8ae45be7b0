import SensorEvents.Config.Error
import SensorEvents.Scaling.BitDepth

/-!
# Hysteresis

Low bits are dropped, and a new level is reported only when the value leaves a band around the
level that is held. The band reaches one step to each side, so that noise within a step is
reported at most once and a value on the boundary of two steps does not chatter.
-/
namespace SensorEvents

structure Hysteresis where
  /-- How many low bits are dropped. -/
  bits : Nat
  /-- Bits of the value that comes in. -/
  inputBits : Nat
  /-- The level that was reported last. -/
  level : Nat := 0
  deriving DecidableEq, Repr

namespace Hysteresis

def build (bits inputBits : Nat) : Accepted Hysteresis :=
  if inputBits = 0 ∨ inputBits > 32 then .error (.inputPrecision inputBits)
  else if bits ≥ inputBits then .error (.hysteresisBits bits inputBits)
  else .ok { bits, inputBits }

/-- The values at which the level is held, from the lowest to the highest. -/
def band (h : Hysteresis) : Checked (Nat × Nat) :=
  let maxIn := BitDepth.largest h.inputBits
  if h.bits = 0 then
    .ok (h.level, h.level)
  else do
    let maxOut ← Checked.shiftRight64 maxIn h.bits
    let offset ← Checked.shiftLeft64 1 (h.bits - 1)
    let step ← Checked.shiftLeft64 1 h.bits
    let margin ← Checked.sub step 1
    let base ← Checked.shiftLeft64 h.level h.bits
    let centre := base ||| offset
    let lower ← if h.level > 0 then Checked.sub centre margin else .ok 0
    let upper ← if h.level < maxOut then Checked.add64 centre margin else .ok maxIn
    return (lower, upper)

/-- Take a value, and say whether a new level is reported. -/
def update (h : Hysteresis) (value : Nat) : Checked (Bool × Hysteresis) := do
  let clipped := min value (BitDepth.largest h.inputBits)
  let (lower, upper) ← h.band
  if clipped < lower ∨ clipped > upper then
    let level ← Checked.shiftRight64 clipped h.bits
    return (true, { h with level })
  else
    return (false, h)

def outputBits (h : Hysteresis) : Checked Nat := Checked.sub h.inputBits h.bits

end Hysteresis

end SensorEvents
