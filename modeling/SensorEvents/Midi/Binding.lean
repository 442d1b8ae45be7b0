import SensorEvents.Config.Error
import SensorEvents.Midi.Message
import SensorEvents.Trigger.Event

/-!
# MIDI bindings

A binding says which message an event of a channel becomes. Not every kind of event has a message
under every binding.
-/
namespace SensorEvents

/-- The message that the events of a channel become. -/
inductive MidiBinding where
  /-- Notes, with pressure for their updates. -/
  | note (channel note : Nat)
  /-- Controller values; a gate sends its velocity and zero. -/
  | controlChange (channel controller : Nat)
  /-- Pressure on a fixed note. -/
  | keyPressure (channel note : Nat)
  /-- Pressure on the whole channel. -/
  | channelPressure (channel : Nat)
  /-- A 14-bit bend; a gate that turns off centres it. -/
  | pitchBend (channel : Nat)
  /-- A gate that turns on selects a program. -/
  | programChange (channel program : Nat)
  deriving DecidableEq, Repr

namespace MidiBinding

def channel : MidiBinding → Nat
  | note channel _ => channel
  | controlChange channel _ => channel
  | keyPressure channel _ => channel
  | channelPressure channel => channel
  | pitchBend channel => channel
  | programChange channel _ => channel

def checkData (name : String) (value : Nat) : Accepted Unit :=
  if value > 127 then .error (.dataByte name value) else .ok ()

/-- The channel is checked before the data byte. -/
def validate (b : MidiBinding) : Accepted Unit := do
  if b.channel > 15 then
    throw (.midiChannel b.channel)
  match b with
  | note _ key => checkData "note" key
  | keyPressure _ key => checkData "note" key
  | controlChange _ controller => checkData "controller" controller
  | programChange _ program => checkData "program" program
  | channelPressure _ => return
  | pitchBend _ => return

def bendCentre : Nat := 0x2000

def bendMax : Nat := 0x3FFF

/-- The message of an event, if this binding has one for its kind. -/
def message? (b : MidiBinding) (event : Event) : Option MidiMessage :=
  let data := min event.intensity 127
  match b, event.kind with
  | note channel key, .on => some (.noteOn channel key data)
  | note channel key, .off => some (.noteOff channel key data)
  | note channel key, .update => some (.keyPressure channel key data)
  | keyPressure channel key, .update => some (.keyPressure channel key data)
  | controlChange channel controller, .off => some (.controlChange channel controller 0)
  | controlChange channel controller, _ => some (.controlChange channel controller data)
  | channelPressure channel, .off => some (.channelPressure channel 0)
  | channelPressure channel, _ => some (.channelPressure channel data)
  | pitchBend channel, .update => some (.pitchBend channel (min event.intensity bendMax))
  | pitchBend channel, .off => some (.pitchBend channel bendCentre)
  | programChange channel program, .on => some (.programChange channel program)
  | _, _ => none

/-- Whether the events are notes, which have to be released. -/
def isNote : MidiBinding → Bool
  | note _ _ => true
  | _ => false

/-- The binding as a line of a report shows it. -/
def describe : MidiBinding → String
  | note channel key => s!"Note \x7b channel: {channel}, note: {key} \x7d"
  | controlChange channel controller =>
    s!"ControlChange \x7b channel: {channel}, controller: {controller} \x7d"
  | keyPressure channel key => s!"KeyPressure \x7b channel: {channel}, note: {key} \x7d"
  | channelPressure channel => s!"ChannelPressure \x7b channel: {channel} \x7d"
  | pitchBend channel => s!"PitchBend \x7b channel: {channel} \x7d"
  | programChange channel program =>
    s!"ProgramChange \x7b channel: {channel}, program: {program} \x7d"

end MidiBinding

end SensorEvents
