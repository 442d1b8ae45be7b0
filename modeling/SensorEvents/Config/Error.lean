import SensorEvents.Text.Decimal

/-!
# Violations of a setting's contract

Every setting is checked once, before the first tick, and a violation names the setting and its
value. Which violation is reported when there are several is decided by the checks themselves.
-/
namespace SensorEvents

inductive ConfigError where
  | precision (got limit : Nat)
  | inputPrecision (got : Nat)
  | coefficient (name : String) (value : Float32)
  | notPositive (name : String) (value : Float32)
  | freezeThreshold (value : Float32)
  | hysteresisBits (bits inputBits : Nat)
  | hysteresisPrecision (inputBits precision : Nat)
  | thresholds (minNote trigger : Nat)
  | thresholdRange (value limit : Nat)
  | inputRange (low high : Nat)
  | outputRange (got : Nat)
  | physicalVelocity (low high : Float32)
  | velocityOutput (low high : Nat)
  | midiChannel (got : Nat)
  | dataByte (name : String) (value : Nat)

namespace ConfigError

open Single (toText)

def message : ConfigError → String
  | precision got limit => s!"output precision must be between 1 and {limit} bits, got {got}"
  | inputPrecision got => s!"input precision must be between 1 and 32 bits, got {got}"
  | coefficient name value => s!"coefficient '{name}' must be in (0, 1], got {toText value}"
  | notPositive name value => s!"'{name}' must be finite and positive, got {toText value}"
  | freezeThreshold value =>
    s!"baseline freeze threshold must not be negative, got {toText value}"
  | hysteresisBits bits inputBits =>
    s!"hysteresis cannot collapse {bits} bits of a {inputBits}-bit input"
  | hysteresisPrecision inputBits produced =>
    s!"hysteresis expects {inputBits}-bit input but the conditioner produces {produced} bits"
  | thresholds minNote trigger =>
    s!"arm threshold {minNote} must be below trigger value {trigger}"
  | thresholdRange value limit =>
    s!"threshold {value} is above the output range maximum {limit}"
  | inputRange low high => s!"input range minimum {low} must be below maximum {high}"
  | outputRange got => s!"output range maximum must be between 1 and 16383, got {got}"
  | physicalVelocity low high =>
    s!"minimum physical velocity {toText low} must be below maximum {toText high}"
  | velocityOutput low high =>
    s!"velocity output range {low}..={high} is invalid (expected 0 <= min <= max <= 127)"
  | midiChannel got => s!"MIDI channel must be between 0 and 15, got {got}"
  | dataByte name value => s!"MIDI {name} must be between 0 and 127, got {value}"

end ConfigError

/-- The outcome of checking a setting, or of building something from settings. -/
abbrev Accepted (α : Type) := Except ConfigError α

end SensorEvents
