/-!
# MIDI messages

The channel messages a session sends, and their bytes: a status byte at or above 128 that names
the kind and the channel, and data bytes below 128. `bytes` keeps only the bits that fit; for a
message with fields in range nothing is lost.
-/
namespace SensorEvents

/-- A channel message. Channels are `0 … 15` and data bytes `0 … 127`. -/
inductive MidiMessage where
  | noteOn (channel note velocity : Nat)
  | noteOff (channel note velocity : Nat)
  | keyPressure (channel note pressure : Nat)
  | controlChange (channel controller value : Nat)
  | programChange (channel program : Nat)
  | channelPressure (channel pressure : Nat)
  /-- The value has 14 bits and rests at `8192`. -/
  | pitchBend (channel value : Nat)
  deriving DecidableEq, Repr

namespace MidiMessage

/-- A status byte: the kind in the upper half, the channel in the lower. -/
def status (kind channel : Nat) : Nat := kind * 16 + channel % 16

def data (value : Nat) : Nat := value % 128

def bytes : MidiMessage → List Nat
  | noteOff channel note velocity => [status 0x8 channel, data note, data velocity]
  | noteOn channel note velocity => [status 0x9 channel, data note, data velocity]
  | keyPressure channel note pressure => [status 0xA channel, data note, data pressure]
  | controlChange channel controller value => [status 0xB channel, data controller, data value]
  | programChange channel program => [status 0xC channel, data program]
  | channelPressure channel pressure => [status 0xD channel, data pressure]
  | pitchBend channel value => [status 0xE channel, data value, data (value / 128)]

end MidiMessage

end SensorEvents
