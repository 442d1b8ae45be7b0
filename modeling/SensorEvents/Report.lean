import SensorEvents.Json.Writing
import SensorEvents.Replay

/-!
# Reports

What a user reads: the summary of a configuration, and a line for each event of a replay, either
as columns or as a JSON object.
-/
namespace SensorEvents

/-- The name of a kind of event in a JSON object. -/
def EventKind.name : EventKind → String
  | on => "on"
  | off => "off"
  | update => "continuous_update"

/-- The name of a kind of event in a column. -/
def EventKind.label : EventKind → String
  | on => "on"
  | off => "off"
  | update => "update"

namespace Report

/-- The spaces that fill a text up to a width, counted in characters. -/
def fill (width : Nat) (s : String) : String :=
  String.ofList (List.replicate (width - s.length) ' ')

/-- A text at the left of its column. -/
def left (width : Nat) (s : String) : String := s ++ fill width s

/-- A text at the right of its column. -/
def right (width : Nat) (s : String) : String := fill width s ++ s

/-- The line of a channel in a summary. -/
def channelLine (c : ChannelConfig) (position : Nat) : String :=
  let column := c.columnAt position
  let precision := c.conditioning.precision
  s!"    - {c.name} (column {column}, {c.conditioning.label} {precision}-bit, " ++
    s!"{c.trigger.label}) -> {c.output.describe}"

def summary (c : SensorConfig) : List String :=
  [s!"  Tick: {c.tickPeriod} ms",
    "  MIDI port: " ++ c.midiPort.getD "(first available)",
    s!"  Channels: {c.channels.length}"] ++
    c.placed.map fun (channel, i) => channelLine channel i

def columnsLine (time : Nat) (channel : String) (event : Event) : String :=
  right 8 (toString time) ++ " ms  " ++ left 16 channel ++ " " ++ left 7 event.kind.label ++ " " ++
    toString event.intensity

/-- The line of an event, as a JSON object. -/
def jsonLine (time : Nat) (channel : String) (event : Event) : String :=
  "\x7b\"t_ms\":" ++ toString time ++ ",\"channel\":" ++ Json.quote channel ++
    ",\"kind\":" ++ Json.quote event.kind.name ++ ",\"intensity\":" ++ toString event.intensity ++
    "\x7d"

/-- The line of an event of a channel. -/
def eventLine (json : Bool) (names : List String) (time : Nat) (e : ChannelEvent) : String :=
  let channel := names[e.channel]?.getD "?"
  if json then jsonLine time channel e.event else columnsLine time channel e.event

def tickLines (json : Bool) (names : List String) (t : ReplayTick) : List String :=
  t.events.map (eventLine json names t.time)

end Report

end SensorEvents
