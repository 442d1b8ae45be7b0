import SensorEvents.Engine
import SensorEvents.Midi.Sink

/-!
# The configuration of a session

A configuration lists the channels of a session in tick order, each with the column of the trace
it reads, its stages and the MIDI message its events become. `validate` reports the first
violation: the tick period, then the number of channels, then channel by channel its name before
its settings. At the end everything is built once, so that no error is left for the run.
-/
namespace SensorEvents

structure ChannelConfig where
  name : String
  /-- The column of the trace; when unset, the position of the channel. -/
  column : Option Nat := none
  /-- Readings of zero and those at or above this are discarded. -/
  validBelow : Option Nat := none
  conditioning : ConditionerConfig := .adaptive {}
  /-- How many low bits the hysteresis drops; when unset there is no hysteresis. -/
  hysteresisBits : Option Nat := none
  trigger : TriggerConfig
  output : MidiBinding

structure SensorConfig where
  /-- The tick period in milliseconds. -/
  tickPeriod : Nat := 1
  /-- Part of the name of the MIDI port; when unset, the first port is meant. -/
  midiPort : Option String := none
  channels : List ChannelConfig

inductive ConfigIssue where
  | tickPeriod
  | noChannels
  | emptyName
  | duplicateName (name : String)
  | hysteresisBits (name : String) (bits precision : Nat)
  | validBelowZero (name : String)
  /-- A setting of a channel violates its contract. -/
  | setting (name : String) (error : ConfigError)

namespace ConfigIssue

/-- The message, and under it the messages of its causes. -/
def chain : ConfigIssue → List String
  | tickPeriod => ["tick_ms must be between 1 and 1000"]
  | noChannels => ["At least one channel is required"]
  | emptyName => ["Channel names must not be empty"]
  | duplicateName name => [s!"Duplicate channel name '{name}'"]
  | hysteresisBits name bits precision =>
    [s!"Channel '{name}': hysteresis_bits ({bits}) must be below the conditioner precision " ++
      s!"({precision})"]
  | validBelowZero name => [s!"Channel '{name}': valid_below must be positive"]
  | setting name error => [s!"Channel '{name}'", error.message]

/-- The message and its causes in one line. -/
def message (issue : ConfigIssue) : String := ": ".intercalate issue.chain

end ConfigIssue

/-- Name the channel whose setting is not accepted. -/
def Accepted.ofChannel {α : Type} (name : String) (x : Accepted α) : Except ConfigIssue α :=
  x.mapError (ConfigIssue.setting name)

namespace ChannelConfig

/-- The column that is read by the channel at a position. -/
def columnAt (c : ChannelConfig) (position : Nat) : Nat := c.column.getD position

def validate (c : ChannelConfig) : Except ConfigIssue Unit := do
  c.conditioning.validate.ofChannel c.name
  c.trigger.validate.ofChannel c.name
  c.output.validate.ofChannel c.name
  if let some bits := c.hysteresisBits then
    let precision := c.conditioning.precision
    if bits ≥ precision then
      throw (.hysteresisBits c.name bits precision)
  if c.validBelow = some 0 then
    throw (.validBelowZero c.name)

/-- Build the stages of a channel that reads from `source`. -/
def build {σ : Type} [Source σ] (c : ChannelConfig) (source : σ) : Accepted (Channel σ) := do
  let conditioner ← c.conditioning.build (Feed.ofLimit source c.validBelow)
  let hysteresis ← c.hysteresisBits.mapM fun bits =>
    Hysteresis.build bits c.conditioning.precision
  let trigger ← c.trigger.build
  Channel.assemble c.name conditioner hysteresis trigger

end ChannelConfig

namespace SensorConfig

def placed (c : SensorConfig) : List (ChannelConfig × Nat) := c.channels.zipIdx

def columns (c : SensorConfig) : List Nat := c.placed.map fun (channel, i) => channel.columnAt i

def maxColumn? (c : SensorConfig) : Option Nat := c.columns.max?

/-- Build an engine with one channel for each entry, in order. `source` is a function of the column
alone: two channels that read one column begin with equal sources and get the same readings to come.
A reader that is asked once for each channel, and gives the second of them a source that goes on
where the first one is, has no counterpart here. -/
def buildEngine {σ : Type} [Source σ] (c : SensorConfig) (clock : Clock) (source : Nat → σ) :
    Except ConfigIssue (Engine σ) := do
  let channels ← c.placed.mapM fun (channel, i) =>
    (channel.build (source (channel.columnAt i))).ofChannel channel.name
  return { clock, channels }

def bindOutputs (c : SensorConfig) (sink : MidiSink) : MidiSink :=
  c.placed.foldl (fun sink (channel, i) => sink.bind i channel.output) sink

/-- Check the channels one by one; `seen` are the names before them. -/
def checkChannels (seen : List String) : List ChannelConfig → Except ConfigIssue Unit
  | [] => .ok ()
  | channel :: channels => do
    if channel.name.isEmpty then
      throw .emptyName
    if channel.name ∈ seen then
      throw (.duplicateName channel.name)
    channel.validate
    checkChannels (channel.name :: seen) channels

def validate (c : SensorConfig) : Except ConfigIssue Unit := do
  if c.tickPeriod = 0 ∨ c.tickPeriod > 1000 then
    throw .tickPeriod
  if c.channels.isEmpty then
    throw .noChannels
  checkChannels [] c.channels
  discard <| c.buildEngine {} fun _ => Scripted.ofList []

end SensorConfig

end SensorEvents
