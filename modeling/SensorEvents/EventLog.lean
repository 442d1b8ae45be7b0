import SensorEvents.Engine

/-!
# The delivery of events

A tick can hand its events to a sink as they arise, one after the other. A sink is given by what it
becomes when it receives an event. An `EventLog` is one that keeps what was delivered, in order.
-/
namespace SensorEvents

section Sinks

variable {σ τ : Type} [Source σ] [Elementary] (receive : τ → ChannelEvent → τ)

/-- Run a channel and hand its events to a sink one after the other. How many they were comes with
the channel and the sink. -/
def Channel.deliver (c : Channel σ) (id now : Nat) (sink : τ) : Checked (Channel σ × τ × Nat) := do
  let (c, events) ← c.tick now
  return (c, events.foldl (fun sink event => receive sink ⟨id, event⟩) sink, events.length)

namespace Engine

/-- Run channels with one sink for all of them; the first has number `id`. -/
def deliverFrom (now : Nat) :
    Nat → List (Channel σ) → τ → Checked (List (Channel σ) × τ × Nat)
  | _, [], sink => .ok ([], sink, 0)
  | id, channel :: channels, sink => do
    let (channel, sink, count) ← channel.deliver receive id now sink
    let (channels, sink, later) ← deliverFrom now (id + 1) channels sink
    return (channel :: channels, sink, count + later)

/-- Run every channel once, and hand the events to a sink. -/
def deliver (e : Engine σ) (sink : τ) : Checked (Engine σ × τ × Nat) := do
  let (channels, sink, count) ← deliverFrom receive e.clock.now 0 e.channels sink
  return ({ e with channels }, sink, count)

end Engine

end Sinks

/-- The events that were delivered and not yet taken. -/
structure EventLog where
  events : List ChannelEvent := []
  deriving DecidableEq, Repr

namespace EventLog

def record (l : EventLog) (events : List ChannelEvent) : EventLog := ⟨l.events ++ events⟩

def drain (l : EventLog) : List ChannelEvent × EventLog := (l.events, {})

def clear (_ : EventLog) : EventLog := {}

def size (l : EventLog) : Nat := l.events.length

end EventLog

end SensorEvents
