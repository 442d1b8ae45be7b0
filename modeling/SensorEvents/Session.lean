import SensorEvents.Config.SensorConfig

/-!
# Sessions

A session is an engine whose events go to a MIDI sink. `sent` is everything the sink has sent, in
order.
-/
namespace SensorEvents

namespace MidiSink

/-- Take the events of a tick one after the other. -/
def receiveAll (s : MidiSink) : List ChannelEvent → MidiSink × List MidiMessage
  | [] => (s, [])
  | e :: events =>
    let (s, messages) := s.receive e.channel e.event
    let (s, later) := s.receiveAll events
    (s, messages ++ later)

end MidiSink

/-- An engine, the sink of its events and the messages sent. -/
structure Session (σ : Type) where
  engine : Engine σ
  sink : MidiSink
  sent : List MidiMessage := []

namespace Session

variable {σ : Type} [Source σ]

/-- A session of a configuration, with every output bound. -/
def start (c : SensorConfig) (clock : Clock) (source : Nat → σ) :
    Except ConfigIssue (Session σ) := do
  let engine ← c.buildEngine clock source
  return { engine, sink := c.bindOutputs .empty }

/-- Start every channel from its sensor at rest. -/
def begin (s : Session σ) : Session σ := { s with engine := s.engine.begin }

def resetBaselines (s : Session σ) : Session σ := { s with engine := s.engine.resetBaselines }

def mapEngine (f : Engine σ → Engine σ) (s : Session σ) : Session σ :=
  { s with engine := f s.engine }

/-- Run every channel once and send what its events become. -/
def tick [Elementary] (s : Session σ) : Checked (Session σ × List ChannelEvent) := do
  let (engine, events) ← s.engine.tick
  let (sink, messages) := s.sink.receiveAll events
  return ({ engine, sink, sent := s.sent ++ messages }, events)

def allNotesOff (s : Session σ) : Session σ :=
  let (sink, messages) := s.sink.allNotesOff
  { s with sink, sent := s.sent ++ messages }

end Session

end SensorEvents
