import SensorEvents.Readings.Trace

/-!
# Ticks of a replay

A replay ticks at a fixed period from the first row to the last, which always has a tick of its
own. Each tick comes with the latest row at or before it. The ticks are produced one at a time,
since a long recording at a short period has very many.
-/
namespace SensorEvents

/-- A time of the replay and the row that is current then. -/
structure Tick where
  time : Nat
  row : TraceRow
  deriving DecidableEq, Repr

/-- The ticks that are still to come: the time of the next one, the time of the last one, the
current row and the rows after it. -/
structure TraceTicks where
  period : Nat
  finish : Nat
  next : Option Nat
  current : TraceRow
  later : List TraceRow
  deriving DecidableEq, Repr

namespace TraceTicks

/-- Go on to the latest row at or before `now`. -/
def seek (now : Nat) (current : TraceRow) : List TraceRow → TraceRow × List TraceRow
  | [] => (current, [])
  | row :: later => if row.time ≤ now then seek now row later else (current, row :: later)

/-- The next tick and the ticks after it. -/
def step? (t : TraceTicks) : Option (Tick × TraceTicks) :=
  t.next.map fun now =>
    let (current, later) := seek now t.current t.later
    let next :=
      if t.finish ≤ now then none
      else some (min (Checked.saturatingAdd64 now t.period) t.finish)
    ({ time := now, row := current }, { t with next, current, later })

/-- The next ticks, at most `count` of them. -/
def take (t : TraceTicks) : Nat → List Tick
  | 0 => []
  | count + 1 =>
    match t.step? with
    | none => []
    | some (tick, rest) => tick :: rest.take count

end TraceTicks

/-- The ticks of a replay; a period of zero counts as one. -/
def Trace.ticks (t : Trace) (period : Nat) : TraceTicks :=
  { period := max period 1, finish := t.last.time, next := some t.first.time, current := t.first
    later := t.later }

/-- How many ticks a replay has at most: one for each millisecond after the first, and one. -/
def Trace.tickBound (t : Trace) : Nat := t.duration + 1

end SensorEvents
