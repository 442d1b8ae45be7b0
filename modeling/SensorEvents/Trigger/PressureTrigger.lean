import SensorEvents.Scaling.InputRange
import SensorEvents.Trigger.Debounce
import SensorEvents.Trigger.Event

/-!
# The pressure trigger

A note turns on at one threshold, and while it is held every change of the value at or above a
second one is reported as pressure. A note that turns off forgets the pressure, so the next note
reports it again.
-/
namespace SensorEvents

structure PressureConfig where
  /-- The note is on from here. -/
  minNote : Nat
  /-- Pressure is reported from here. -/
  trigger : Nat
  /-- The velocity of a note; when unset, the value at that moment. -/
  onVelocity : Option Nat := none
  input : InputRange := {}
  debounce : Nat := 0
  deriving DecidableEq, Repr

namespace PressureConfig

def validate (c : PressureConfig) : Accepted Unit := do
  c.input.validate
  if c.minNote > c.trigger then
    throw (.thresholds c.minNote c.trigger)
  if c.trigger > c.input.outputMax then
    throw (.thresholdRange c.trigger c.input.outputMax)
  if let some velocity := c.onVelocity then
    if velocity > 127 then
      throw (.velocityOutput velocity velocity)

/-- Settings with two thresholds in the domain of a 7-bit controller. -/
def build (minNote trigger : Nat) : Accepted PressureConfig := do
  let c : PressureConfig := { minNote, trigger }
  c.validate
  return c

def withInput (c : PressureConfig) (input : InputRange) : Accepted PressureConfig := do
  let c := { c with input }
  c.validate
  return c

end PressureConfig

structure PressureTrigger where
  config : PressureConfig
  on : Bool := false
  /-- The pressure that was reported last while the note is held. -/
  lastPressure : Option Nat := none
  gate : Debounce
  deriving DecidableEq, Repr

namespace PressureTrigger

def build (config : PressureConfig) : Accepted PressureTrigger := do
  config.validate
  return { config, gate := { interval := config.debounce } }

/-- The note at a preprocessed value: `none` when a change is refused, otherwise the trigger after
the change, if there is one, and the events so far. -/
def changeNote? (t : PressureTrigger) (value now : Nat) : Option (PressureTrigger × Emitted) :=
  let wantsOn : Bool := value ≥ t.config.minNote
  if wantsOn = t.on then
    some (t, .none)
  else if t.gate.ready now then
    let gate := t.gate.mark now
    if wantsOn then
      let velocity := t.config.onVelocity.getD (min value 127)
      some ({ t with on := true, gate }, .one (.on velocity))
    else
      some ({ t with on := false, lastPressure := none, gate }, .one (.off 0))
  else
    none

/-- Report the pressure if the note is held and the value is a new one. -/
def changePressure (t : PressureTrigger) (value : Nat) (emitted : Emitted) :
    PressureTrigger × Emitted :=
  if t.on && value ≥ t.config.trigger && t.lastPressure ≠ some value then
    ({ t with lastPressure := some value }, emitted.push (.update value))
  else
    (t, emitted)

def evaluate (t : PressureTrigger) (value now : Nat) : Checked (PressureTrigger × Emitted) := do
  let value ← t.config.input.apply value
  match t.changeNote? value now with
  | none => return (t, .none)
  | some (t, emitted) => return t.changePressure value emitted

def isOn (t : PressureTrigger) : Bool := t.on

def reset (t : PressureTrigger) : PressureTrigger :=
  { t with on := false, lastPressure := none, gate := t.gate.reset }

def setThresholds (t : PressureTrigger) (minNote trigger : Nat) : Accepted PressureTrigger := do
  let config := { t.config with minNote, trigger }
  config.validate
  return { t with config }

def setDebounce (t : PressureTrigger) (interval : Nat) : PressureTrigger :=
  { t with config := { t.config with debounce := interval }, gate := t.gate.setInterval interval }

end PressureTrigger

end SensorEvents
