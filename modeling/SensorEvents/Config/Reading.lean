import SensorEvents.Config.SensorConfig
import SensorEvents.Document.Record

/-!
# Reading a configuration from a document

Each group of settings is read from a record. Settings with a default may be left out; all others
have to be there, with a value of their type that fits their width. Nothing here checks a contract:
that is for `validate`.
-/
namespace SensorEvents

def byte? : Node → Option Nat := Node.nat? 0xFF

def word? : Node → Option Nat := Node.nat? Checked.max32

def long? : Node → Option Nat := Node.nat? Checked.max64

open Node (single? bool? text? optional?)

namespace ResponseCurve

def ofNode? (m : Reading) (node : Node) : Metered ResponseCurve := do
  let (kind, body) ← node.variant? m ["power", "exponential", "logarithmic"]
  let name := if kind = "power" then "gamma" else "factor"
  let r ← body.record? .below [name]
  let value ← r.required? name single?
  match kind with
  | "power" => return power value
  | "exponential" => return exponential value
  | _ => return logarithmic value

end ResponseCurve

namespace VelocityMap

def ofNode? (m : Reading) (node : Node) : Metered VelocityMap := do
  let r ← node.record? m ["min_physical", "max_physical", "min_output", "max_output"]
  let minPhysical ← r.required? "min_physical" single?
  let maxPhysical ← r.required? "max_physical" single?
  let minOutput ← r.defaulted? "min_output" 1 byte?
  let maxOutput ← r.defaulted? "max_output" 127 byte?
  return { minPhysical, maxPhysical, minOutput, maxOutput }

end VelocityMap

namespace InputRange

def ofNode? (m : Reading) (node : Node) : Metered InputRange := do
  let r ← node.record? m ["min_input", "max_input", "invert", "output_max"]
  let d : InputRange := {}
  let minInput ← r.defaulted? "min_input" d.minInput (optional? word?)
  let maxInput ← r.defaulted? "max_input" d.maxInput (optional? word?)
  let invert ← r.defaulted? "invert" d.invert bool?
  let outputMax ← r.defaulted? "output_max" d.outputMax word?
  return { minInput, maxInput, invert, outputMax }

end InputRange

namespace FilterParams

def ofNode? (m : Reading) (node : Node) : Metered FilterParams := do
  let r ← node.record? m ["precision", "poll_interval_ms", "smoothing", "baseline_rate",
    "baseline_freeze_threshold", "delta_max", "curve", "output_smoothing"]
  let d : FilterParams := {}
  let precision ← r.defaulted? "precision" d.precision byte?
  let pollInterval ← r.defaulted? "poll_interval_ms" d.pollInterval long?
  let smoothing ← r.defaulted? "smoothing" d.smoothing single?
  let baselineRate ← r.defaulted? "baseline_rate" d.baselineRate single?
  let freezeThreshold ← r.defaulted? "baseline_freeze_threshold" d.freezeThreshold single?
  let deltaMax ← r.defaulted? "delta_max" d.deltaMax single?
  let curve ← r.partD? "curve" d.curve ResponseCurve.ofNode?
  let outputSmoothing ← r.defaulted? "output_smoothing" d.outputSmoothing single?
  return { precision, pollInterval, smoothing, baselineRate, freezeThreshold, deltaMax, curve,
           outputSmoothing }

end FilterParams

namespace DirectParams

def ofNode? (m : Reading) (node : Node) : Metered DirectParams := do
  let r ← node.record? m ["input_bits", "precision", "poll_interval_ms"]
  let d : DirectParams := {}
  let inputBits ← r.defaulted? "input_bits" d.inputBits byte?
  let precision ← r.defaulted? "precision" d.precision byte?
  let pollInterval ← r.defaulted? "poll_interval_ms" d.pollInterval long?
  return { inputBits, precision, pollInterval }

end DirectParams

namespace ConditionerConfig

def ofNode? (m : Reading) (node : Node) : Metered ConditionerConfig := do
  let (kind, body) ← node.variant? m ["adaptive", "direct"]
  match kind with
  | "adaptive" => adaptive <$> FilterParams.ofNode? .below body
  | _ => direct <$> DirectParams.ofNode? .below body

end ConditionerConfig

namespace VelocityConfig

def ofNode? (m : Reading) (node : Node) : Metered VelocityConfig := do
  let r ← node.record? m ["min_note_threshold", "trigger_value", "input", "velocity",
    "debounce_ms", "release_velocity"]
  let minNote ← r.required? "min_note_threshold" word?
  let trigger ← r.required? "trigger_value" word?
  let input ← r.partD? "input" {} InputRange.ofNode?
  let velocity ← r.part? "velocity" VelocityMap.ofNode?
  let debounce ← r.defaulted? "debounce_ms" 2 long?
  let releaseVelocity ← r.defaulted? "release_velocity" false bool?
  return { minNote, trigger, input, velocity, debounce, releaseVelocity }

end VelocityConfig

namespace ThresholdConfig

def ofNode? (m : Reading) (node : Node) : Metered ThresholdConfig := do
  let r ← node.record? m ["threshold", "hysteresis", "on_velocity", "input", "debounce_ms"]
  let threshold ← r.required? "threshold" word?
  let hysteresis ← r.defaulted? "hysteresis" 0 word?
  let onVelocity ← r.defaulted? "on_velocity" 127 byte?
  let input ← r.partD? "input" {} InputRange.ofNode?
  let debounce ← r.defaulted? "debounce_ms" 0 long?
  return { threshold, hysteresis, onVelocity, input, debounce }

end ThresholdConfig

namespace PressureConfig

def ofNode? (m : Reading) (node : Node) : Metered PressureConfig := do
  let r ← node.record? m ["min_note_threshold", "trigger_value", "on_velocity", "input",
    "debounce_ms"]
  let minNote ← r.required? "min_note_threshold" word?
  let trigger ← r.required? "trigger_value" word?
  let onVelocity ← r.defaulted? "on_velocity" none (optional? byte?)
  let input ← r.partD? "input" {} InputRange.ofNode?
  let debounce ← r.defaulted? "debounce_ms" 0 long?
  return { minNote, trigger, onVelocity, input, debounce }

end PressureConfig

namespace ContinuousConfig

def ofNode? (m : Reading) (node : Node) : Metered ContinuousConfig := do
  let r ← node.record? m ["input"]
  let input ← r.partD? "input" {} InputRange.ofNode?
  return { input }

end ContinuousConfig

namespace TriggerConfig

def ofNode? (m : Reading) (node : Node) : Metered TriggerConfig := do
  let (kind, body) ← node.variant? m ["velocity", "threshold", "pressure", "continuous"]
  match kind with
  | "velocity" => velocity <$> VelocityConfig.ofNode? .below body
  | "threshold" => threshold <$> ThresholdConfig.ofNode? .below body
  | "pressure" => pressure <$> PressureConfig.ofNode? .below body
  | _ => continuous <$> ContinuousConfig.ofNode? .below body

end TriggerConfig

namespace MidiBinding

/-- The data byte of each kind of binding, if it has one. -/
def dataField? (kind : String) : Option String :=
  match kind with
  | "note" | "key_pressure" => some "note"
  | "control_change" => some "controller"
  | "program_change" => some "program"
  | _ => none

def ofNode? (m : Reading) (node : Node) : Metered MidiBinding := do
  let (kind, body) ← node.variant? m ["note", "control_change", "key_pressure",
    "channel_pressure", "pitch_bend", "program_change"]
  let dataField := dataField? kind
  let r ← body.record? .below ("channel" :: dataField.toList)
  let channel ← r.required? "channel" byte?
  let data ← match dataField with
    | some name => r.required? name byte?
    | none => pure 0
  match kind with
  | "note" => return note channel data
  | "control_change" => return controlChange channel data
  | "key_pressure" => return keyPressure channel data
  | "channel_pressure" => return channelPressure channel
  | "pitch_bend" => return pitchBend channel
  | _ => return programChange channel data

end MidiBinding

namespace ChannelConfig

def ofNode? (m : Reading) (node : Node) : Metered ChannelConfig := do
  let r ← node.record? m ["name", "column", "valid_below", "conditioning", "hysteresis_bits",
    "trigger", "output"]
  let name ← r.required? "name" text?
  let column ← r.defaulted? "column" none (optional? long?)
  let validBelow ← r.defaulted? "valid_below" none (optional? word?)
  let conditioning ← r.partD? "conditioning" (.adaptive {}) ConditionerConfig.ofNode?
  let hysteresisBits ← r.defaulted? "hysteresis_bits" none (optional? byte?)
  let trigger ← r.part? "trigger" TriggerConfig.ofNode?
  let output ← r.part? "output" MidiBinding.ofNode?
  return { name, column, validBelow, conditioning, hysteresisBits, trigger, output }

end ChannelConfig

namespace SensorConfig

/-- The MIDI settings, of which there is one. -/
def portOfNode? (m : Reading) (node : Node) : Metered (Option String) := do
  let r ← node.record? m ["port"]
  r.defaulted? "port" none (optional? text?)

def ofNode? (m : Reading) (node : Node) : Metered SensorConfig := do
  let r ← node.record? m ["tick_ms", "midi", "channels"]
  let tickPeriod ← r.defaulted? "tick_ms" 1 long?
  let midiPort ← r.partD? "midi" none portOfNode?
  let channels ← r.part? "channels" fun m node => do
    let (m, items) ← node.items? m
    items.mapM (ChannelConfig.ofNode? m)
  return { tickPeriod, midiPort, channels }

end SensorConfig

end SensorEvents
