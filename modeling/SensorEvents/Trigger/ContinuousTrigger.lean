import SensorEvents.Scaling.InputRange
import SensorEvents.Trigger.Event

/-!
# The continuous trigger

A controller without a gate: its value is reported whenever it differs from the one reported last.
-/
namespace SensorEvents

structure ContinuousConfig where
  input : InputRange := {}
  deriving DecidableEq, Repr

def ContinuousConfig.validate (c : ContinuousConfig) : Accepted Unit := c.input.validate

structure ContinuousTrigger where
  config : ContinuousConfig
  /-- The value that was reported last. -/
  lastSent : Option Nat := none
  deriving DecidableEq, Repr

namespace ContinuousTrigger

def build (config : ContinuousConfig) : Accepted ContinuousTrigger := do
  config.validate
  return { config }

def evaluate (t : ContinuousTrigger) (value : Nat) : Checked (ContinuousTrigger × Emitted) := do
  let value ← t.config.input.apply value
  if t.lastSent = some value then
    return (t, .none)
  else
    return ({ t with lastSent := some value }, .one (.update value))

def reset (t : ContinuousTrigger) : ContinuousTrigger := { t with lastSent := none }

end ContinuousTrigger

end SensorEvents
