import SensorEvents.Config.SensorConfig
import SensorEvents.Readings.TraceTicks

/-!
# Replay

A replay drives the engine of a configuration with a recorded trace. Every channel reads its column
of the row that is current at a tick, and the events of a tick come with its time. A configuration
that reads a column the trace does not have is refused before anything happens.
-/
namespace SensorEvents

inductive ReplayError where
  /-- The highest column that is read is not among the columns there are. -/
  | missingColumn (column columns : Nat)
  | config (issue : ConfigIssue)

/-- The message, and under it the messages of its causes. -/
def ReplayError.chain : ReplayError → List String
  | missingColumn column columns =>
    [s!"Configuration reads column {column} but the trace has {columns} columns"]
  | config issue => issue.chain

/-- A replay under way: the engine and the ticks to come. -/
structure Replay where
  engine : Engine ColumnSource
  ticks : TraceTicks

structure ReplayTick where
  time : Nat
  events : List ChannelEvent
  deriving DecidableEq, Repr

namespace Replay

/-- The engine at the first row of a trace, with every channel started. -/
def startEngine (c : SensorConfig) (t : Trace) : Except ReplayError (Engine ColumnSource) := do
  if let some column := c.maxColumn? then
    if column ≥ t.columns then
      throw (.missingColumn column t.columns)
  let clock := Clock.set {} t.first.time
  let source (column : Nat) : ColumnSource := { column, row := t.first.values }
  let engine ← (c.buildEngine clock source).mapError ReplayError.config
  return engine.begin

def start (c : SensorConfig) (t : Trace) : Except ReplayError Replay := do
  let engine ← startEngine c t
  return { engine, ticks := t.ticks c.tickPeriod }

/-- Bring the engine to a tick and run it. -/
def runTick [Elementary] (engine : Engine ColumnSource) (tick : Tick) :
    Checked (Engine ColumnSource × ReplayTick) := do
  let engine := engine.mapSources (ColumnSource.setRow tick.row.values)
  let engine := { engine with clock := engine.clock.set tick.time }
  let (engine, events) ← engine.tick
  return (engine, { time := tick.time, events })

/-- Run the next tick, if there is one. -/
def step? [Elementary] (r : Replay) : Checked (Option (ReplayTick × Replay)) :=
  match r.ticks.step? with
  | none => .ok none
  | some (tick, ticks) => do
    let (engine, events) ← runTick r.engine tick
    return some (events, { engine, ticks })

/-- Run the next ticks, at most `count` of them, after the ones in `done`, the last of which comes
first there. -/
def runAfter [Elementary] (done : List ReplayTick) : Nat → Replay → Checked (List ReplayTick)
  | 0, _ => .ok done.reverse
  | count + 1, r => do
    match ← r.step? with
    | none => return done.reverse
    | some (tick, r) => runAfter (tick :: done) count r

/-- Run the next ticks, at most `count` of them. -/
def run [Elementary] (r : Replay) (count : Nat) : Checked (List ReplayTick) := runAfter [] count r

end Replay

end SensorEvents
