import SensorEvents.Channel

/-!
# The engine

The engine holds the clock and the channels. A tick reads the clock once and runs the channels in
order; the events come with the number of their channel, in the order in which they arise.
-/
namespace SensorEvents

/-- The time of a session in milliseconds. It never runs backwards, and it stops at the largest time. -/
structure Clock where
  now : Nat := 0
  deriving DecidableEq, Repr

namespace Clock

/-- Jump to a time that is not in the past. -/
def set (c : Clock) (time : Nat) : Clock := ⟨max c.now time⟩

def advance (c : Clock) (elapsed : Nat) : Clock := ⟨Checked.saturatingAdd64 c.now elapsed⟩

end Clock

/-- An event and the number of its channel. -/
structure ChannelEvent where
  channel : Nat
  event : Event
  deriving DecidableEq, Repr

/-- A clock and channels, which are numbered from zero. -/
structure Engine (σ : Type) where
  clock : Clock
  channels : List (Channel σ) := []

namespace Engine

variable {σ : Type} [Source σ]

def size (e : Engine σ) : Nat := e.channels.length

/-- Start every channel from its sensor at rest. -/
def begin (e : Engine σ) : Engine σ := { e with channels := e.channels.map Channel.begin }

def resetBaselines (e : Engine σ) : Engine σ :=
  { e with channels := e.channels.map Channel.resetBaseline }

/-- Run channels at a time; the first has number `id`. -/
def tickFrom [Elementary] (now : Nat) :
    Nat → List (Channel σ) → Checked (List (Channel σ) × List ChannelEvent)
  | _, [] => .ok ([], [])
  | id, channel :: channels => do
    let (channel, events) ← channel.tick now
    let (channels, later) ← tickFrom now (id + 1) channels
    return (channel :: channels, events.map (ChannelEvent.mk id) ++ later)

/-- Run every channel once at the time of the clock. -/
def tick [Elementary] (e : Engine σ) : Checked (Engine σ × List ChannelEvent) := do
  let (channels, events) ← tickFrom e.clock.now 0 e.channels
  return ({ e with channels }, events)

def modify (e : Engine σ) (id : Nat) (f : Channel σ → Channel σ) : Engine σ :=
  { e with channels := e.channels.modify id f }

def mapSources (f : σ → σ) (e : Engine σ) : Engine σ :=
  { e with channels := e.channels.map (Channel.mapSource f) }

def names (e : Engine σ) : List String := e.channels.map Channel.name

end Engine

end SensorEvents
