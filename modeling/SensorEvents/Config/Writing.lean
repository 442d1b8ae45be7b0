import SensorEvents.Config.Reading

/-!
# Writing a configuration to a document

The other direction of reading: a configuration becomes a document with every setting in it, those
with a default as well. Settings that are unset are null, and a variant begins with its kind.
-/
namespace SensorEvents

/-- A number in single precision as a scalar; a finite one has the fewest digits that read back. -/
def Scalar.ofSingle (x : Float32) : Scalar :=
  let negative : Bool := x.toBits ≥ 0x80000000
  if x.isNaN then notANumber
  else match Binary.ofSingle? x with
    | none => infinity negative
    | some ⟨0, _⟩ => real ⟨negative, 0, 0⟩
    | some b => let (digits, k) := Decimal.shortest .single .upward b; real ⟨negative, digits, k⟩

namespace Node

def ofText (s : String) : Node := typed (.text s)

def ofBool (b : Bool) : Node := typed (.bool b)

def ofNat (n : Nat) : Node := typed (.natural n)

def ofSingle (x : Float32) : Node := typed (Scalar.ofSingle x)

def ofOption {α : Type} (write : α → Node) : Option α → Node
  | none => typed .null
  | some x => write x

def ofFields (entries : List (String × Node)) : Node :=
  fields (entries.map fun e => (ofText e.1, e.2)) false

def ofVariant (kind : String) (entries : List (String × Node)) : Node :=
  ofFields (("kind", ofText kind) :: entries)

end Node

open Node (ofText ofBool ofNat ofSingle ofOption ofFields ofVariant)

def ResponseCurve.toNode : ResponseCurve → Node
  | power gamma => ofVariant "power" [("gamma", ofSingle gamma)]
  | exponential factor => ofVariant "exponential" [("factor", ofSingle factor)]
  | logarithmic factor => ofVariant "logarithmic" [("factor", ofSingle factor)]

def VelocityMap.toNode (m : VelocityMap) : Node :=
  ofFields [("min_physical", ofSingle m.minPhysical), ("max_physical", ofSingle m.maxPhysical),
    ("min_output", ofNat m.minOutput), ("max_output", ofNat m.maxOutput)]

def InputRange.toNode (r : InputRange) : Node :=
  ofFields [("min_input", ofOption ofNat r.minInput), ("max_input", ofOption ofNat r.maxInput),
    ("invert", ofBool r.invert), ("output_max", ofNat r.outputMax)]

def FilterParams.entries (p : FilterParams) : List (String × Node) :=
  [("precision", ofNat p.precision), ("poll_interval_ms", ofNat p.pollInterval),
    ("smoothing", ofSingle p.smoothing), ("baseline_rate", ofSingle p.baselineRate),
    ("baseline_freeze_threshold", ofSingle p.freezeThreshold),
    ("delta_max", ofSingle p.deltaMax), ("curve", p.curve.toNode),
    ("output_smoothing", ofSingle p.outputSmoothing)]

/-- The settings of a direct reader by name. -/
def DirectParams.entries (p : DirectParams) : List (String × Node) :=
  [("input_bits", ofNat p.inputBits), ("precision", ofNat p.precision),
    ("poll_interval_ms", ofNat p.pollInterval)]

namespace ConditionerConfig

/-- The settings of a conditioner by name, without its kind. -/
def entries : ConditionerConfig → List (String × Node)
  | adaptive p => p.entries
  | direct p => p.entries

def toNode (c : ConditionerConfig) : Node := ofVariant c.label c.entries

end ConditionerConfig

namespace TriggerConfig

/-- The settings of a trigger by name, without its kind. -/
def entries : TriggerConfig → List (String × Node)
  | velocity c =>
    [("min_note_threshold", ofNat c.minNote), ("trigger_value", ofNat c.trigger),
      ("input", c.input.toNode), ("velocity", c.velocity.toNode),
      ("debounce_ms", ofNat c.debounce), ("release_velocity", ofBool c.releaseVelocity)]
  | threshold c =>
    [("threshold", ofNat c.threshold), ("hysteresis", ofNat c.hysteresis),
      ("on_velocity", ofNat c.onVelocity), ("input", c.input.toNode),
      ("debounce_ms", ofNat c.debounce)]
  | pressure c =>
    [("min_note_threshold", ofNat c.minNote), ("trigger_value", ofNat c.trigger),
      ("on_velocity", ofOption ofNat c.onVelocity), ("input", c.input.toNode),
      ("debounce_ms", ofNat c.debounce)]
  | continuous c => [("input", c.input.toNode)]

def toNode (c : TriggerConfig) : Node := ofVariant c.label c.entries

end TriggerConfig

def MidiBinding.toNode : MidiBinding → Node
  | note channel key => ofVariant "note" [("channel", ofNat channel), ("note", ofNat key)]
  | controlChange channel controller =>
    ofVariant "control_change" [("channel", ofNat channel), ("controller", ofNat controller)]
  | keyPressure channel key =>
    ofVariant "key_pressure" [("channel", ofNat channel), ("note", ofNat key)]
  | channelPressure channel => ofVariant "channel_pressure" [("channel", ofNat channel)]
  | pitchBend channel => ofVariant "pitch_bend" [("channel", ofNat channel)]
  | programChange channel program =>
    ofVariant "program_change" [("channel", ofNat channel), ("program", ofNat program)]

def ChannelConfig.toNode (c : ChannelConfig) : Node :=
  ofFields [("name", ofText c.name), ("column", ofOption ofNat c.column),
    ("valid_below", ofOption ofNat c.validBelow), ("conditioning", c.conditioning.toNode),
    ("hysteresis_bits", ofOption ofNat c.hysteresisBits), ("trigger", c.trigger.toNode),
    ("output", c.output.toNode)]

def SensorConfig.toNode (c : SensorConfig) : Node :=
  ofFields [("tick_ms", ofNat c.tickPeriod),
    ("midi", ofFields [("port", ofOption ofText c.midiPort)]),
    ("channels", .list (c.channels.map ChannelConfig.toNode) false)]

end SensorEvents
