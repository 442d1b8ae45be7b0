import SensorEvents.Conditioning.FilterParams
import SensorEvents.Readings.Source

/-!
# The direct reader

A sensor that does not drift is read and brought to the output precision, nothing more.
-/
namespace SensorEvents

structure DirectParams where
  /-- Bits of a raw reading. -/
  inputBits : Nat := 12
  /-- Bits of the output. -/
  precision : Nat := 7
  /-- Least time between polls. -/
  pollInterval : Nat := 0
  deriving DecidableEq, Repr

def DirectParams.validate (p : DirectParams) : Accepted Unit := do
  if p.inputBits = 0 ∨ p.inputBits > 32 then
    throw (.inputPrecision p.inputBits)
  checkPrecision p.precision

/-- A reader with its source, the last reading and the value it gave. -/
structure DirectReader (σ : Type) where
  source : σ
  params : DirectParams
  raw : Nat := 0
  value : Nat := 0
  lastUpdate : Nat := 0

namespace DirectReader

variable {σ : Type} [Source σ]

def build (source : σ) (params : DirectParams) : Accepted (DirectReader σ) := do
  params.validate
  return { source, params }

def isDue (r : DirectReader σ) (now : Nat) : Bool :=
  now - r.lastUpdate ≥ r.params.pollInterval

/-- Read if a poll is due, and say whether the value changed. -/
def poll (r : DirectReader σ) (now : Nat) : Checked (Bool × DirectReader σ) :=
  if r.isDue now then do
    let (reading, source) := Source.read r.source
    let raw := min reading (BitDepth.largest r.params.inputBits)
    let value ← BitDepth.rescale raw r.params.inputBits r.params.precision
    return (value ≠ r.value, { r with source, raw, value, lastUpdate := now })
  else
    .ok (false, r)

def setPollInterval (r : DirectReader σ) (interval : Nat) : DirectReader σ :=
  { r with params := { r.params with pollInterval := interval } }

end DirectReader

end SensorEvents
