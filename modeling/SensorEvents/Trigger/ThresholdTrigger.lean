import SensorEvents.Scaling.InputRange
import SensorEvents.Trigger.Debounce
import SensorEvents.Trigger.Event

/-!
# The threshold trigger

A gate with one threshold and a band above it: on above the band, off below the threshold, always
with the same velocity.
-/
namespace SensorEvents

structure ThresholdConfig where
  threshold : Nat
  /-- The band above the threshold that has to be left to turn on. -/
  hysteresis : Nat := 0
  onVelocity : Nat := 127
  input : InputRange := {}
  debounce : Nat := 0
  deriving DecidableEq, Repr

namespace ThresholdConfig

/-- The value that has to be exceeded to turn on lies below the top of the domain, or nothing
could exceed it. -/
def validate (c : ThresholdConfig) : Accepted Unit := do
  c.input.validate
  let onPoint := Checked.saturatingAdd32 c.threshold c.hysteresis
  if onPoint ≥ c.input.outputMax then
    throw (.thresholdRange onPoint c.input.outputMax)
  if c.onVelocity > 127 then
    throw (.velocityOutput c.onVelocity c.onVelocity)

def withInput (c : ThresholdConfig) (input : InputRange) : Accepted ThresholdConfig := do
  let c := { c with input }
  c.validate
  return c

end ThresholdConfig

structure ThresholdTrigger where
  config : ThresholdConfig
  on : Bool := false
  gate : Debounce
  deriving DecidableEq, Repr

namespace ThresholdTrigger

def build (config : ThresholdConfig) : Accepted ThresholdTrigger := do
  config.validate
  return { config, gate := { interval := config.debounce } }

/-- Whether the gate should be on at a preprocessed value. -/
def wantsOn (t : ThresholdTrigger) (value : Nat) : Checked Bool :=
  if t.on then
    .ok (value ≥ t.config.threshold)
  else do
    let onPoint ← Checked.add32 t.config.threshold t.config.hysteresis
    return value > onPoint

def evaluate (t : ThresholdTrigger) (value now : Nat) : Checked (ThresholdTrigger × Emitted) := do
  let value ← t.config.input.apply value
  let on ← t.wantsOn value
  if on = t.on ∨ !t.gate.ready now then
    return (t, .none)
  else
    let event : Event := if on then .on t.config.onVelocity else .off 0
    return ({ t with on, gate := t.gate.mark now }, .one event)

def isOn (t : ThresholdTrigger) : Bool := t.on

def reset (t : ThresholdTrigger) : ThresholdTrigger := { t with on := false, gate := t.gate.reset }

def setThreshold (t : ThresholdTrigger) (threshold hysteresis : Nat) :
    Accepted ThresholdTrigger := do
  let config := { t.config with threshold, hysteresis }
  config.validate
  return { t with config }

def setDebounce (t : ThresholdTrigger) (interval : Nat) : ThresholdTrigger :=
  { t with config := { t.config with debounce := interval }, gate := t.gate.setInterval interval }

end ThresholdTrigger

end SensorEvents
