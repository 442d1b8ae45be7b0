import SensorEvents.Scaling.InputRange
import SensorEvents.Scaling.VelocityMap
import SensorEvents.Trigger.Debounce
import SensorEvents.Trigger.Event

/-!
# The velocity trigger

The time a value takes from the arm threshold to the trigger value gives the velocity of a note,
and the way back down can be timed as well.

    at rest  → arming      at or above the arm threshold
    arming   → at rest     below the arm threshold
    arming   → active      at or above the trigger value, with an on
    active   → releasing   below the trigger value
    releasing → active     at or above the trigger value
    releasing → at rest    below the arm threshold, with an off

An evaluation goes on to further transitions while the debounce allows it. `cascade` bounds their
number; that two are enough rests on the order of the thresholds, which `validate` asks for.
-/
namespace SensorEvents

structure VelocityConfig where
  /-- Timing starts here. -/
  minNote : Nat
  /-- The note sounds from here on. -/
  trigger : Nat
  input : InputRange := {}
  velocity : VelocityMap
  /-- Least time between two transitions. -/
  debounce : Nat := 2
  /-- Whether the way down is timed; otherwise an off has velocity zero. -/
  releaseVelocity : Bool := false

namespace VelocityConfig

def validate (c : VelocityConfig) : Accepted Unit := do
  c.input.validate
  c.velocity.validate
  if c.minNote ≥ c.trigger then
    throw (.thresholds c.minNote c.trigger)
  if c.trigger > c.input.outputMax then
    throw (.thresholdRange c.trigger c.input.outputMax)

/-- Settings with two thresholds in the domain of a 7-bit controller. -/
def build (minNote trigger : Nat) (velocity : VelocityMap) : Accepted VelocityConfig := do
  let c : VelocityConfig := { minNote, trigger, velocity }
  c.validate
  return c

/-- The distance between the thresholds when only the arm threshold is given. -/
def defaultOffset : Nat := 12

/-- Settings with the trigger value `offset` above the arm threshold, at most at the top of the
domain. -/
def buildWithOffset (minNote offset : Nat) (velocity : VelocityMap) : Accepted VelocityConfig :=
  let top := ({} : InputRange).outputMax
  build minNote (min (Checked.saturatingAdd32 minNote offset) top) velocity

def withInput (c : VelocityConfig) (input : InputRange) : Accepted VelocityConfig := do
  let c := { c with input }
  c.validate
  return c

def distance (c : VelocityConfig) : Checked Nat := Checked.sub c.trigger c.minNote

/-- The velocity of a crossing that took `elapsed` milliseconds. -/
def velocityFor (c : VelocityConfig) (elapsed : Nat) : Checked Nat := do
  let distance ← c.distance
  c.velocity.intensity (VelocityMap.physical distance elapsed)

end VelocityConfig

inductive VelocityPhase where
  | idle
  | arming (since : Nat)
  | active
  | releasing (since : Nat)
  deriving DecidableEq, Repr

structure VelocityTrigger where
  config : VelocityConfig
  phase : VelocityPhase := .idle
  gate : Debounce

namespace VelocityTrigger

def build (config : VelocityConfig) : Accepted VelocityTrigger := do
  config.validate
  return { config, gate := { interval := config.debounce } }

/-- The phase that `value` asks for, if it is another one. -/
def next? (t : VelocityTrigger) (value now : Nat) : Option VelocityPhase :=
  let minNote := t.config.minNote
  let trigger := t.config.trigger
  match t.phase with
  | .idle => if value ≥ minNote then some (.arming now) else none
  | .arming _ =>
    if value < minNote then some .idle else if value ≥ trigger then some .active else none
  | .active => if value < trigger then some (.releasing now) else none
  | .releasing _ =>
    if value ≥ trigger then some .active else if value < minNote then some .idle else none

/-- The event that a transition reports, if any. -/
def report (t : VelocityTrigger) (next : VelocityPhase) (now : Nat) :
    Checked (Option Event) :=
  match t.phase, next with
  | .arming _, .idle => .ok none
  | .arming since, _ => do
    let velocity ← t.config.velocityFor (now - since)
    return some (.on velocity)
  | .releasing _, .active => .ok none
  | .releasing since, _ =>
    if t.config.releaseVelocity then do
      let velocity ← t.config.velocityFor (now - since)
      return some (.off velocity)
    else
      .ok (some (.off 0))
  | .idle, _ => .ok none
  | .active, _ => .ok none

/-- The transition that `value` asks for, if the debounce allows it: the trigger after it and the
event it reports. -/
def step? (t : VelocityTrigger) (value now : Nat) :
    Checked (Option (VelocityTrigger × Option Event)) :=
  match t.next? value now with
  | none => .ok none
  | some next =>
    if t.gate.ready now then do
      let event ← t.report next now
      return some ({ t with phase := next, gate := t.gate.mark now }, event)
    else
      .ok none

/-- Make transitions until none is left or `fuel` of them are made. -/
def settle (value now : Nat) : Nat → VelocityTrigger → Emitted → Checked (VelocityTrigger × Emitted)
  | 0, t, emitted => .ok (t, emitted)
  | fuel + 1, t, emitted => do
    match ← t.step? value now with
    | none => return (t, emitted)
    | some (t, event) =>
      settle value now fuel t (match event with | some e => emitted.push e | none => emitted)

/-- More transitions than one evaluation can make: no phase is entered twice. -/
def cascade : Nat := 4

def evaluate (t : VelocityTrigger) (value now : Nat) : Checked (VelocityTrigger × Emitted) := do
  let value ← t.config.input.apply value
  settle value now cascade t .none

def isOn (t : VelocityTrigger) : Bool :=
  match t.phase with
  | .active | .releasing _ => true
  | .idle | .arming _ => false

def reset (t : VelocityTrigger) : VelocityTrigger := { t with phase := .idle, gate := t.gate.reset }

def withConfig (t : VelocityTrigger) (config : VelocityConfig) : Accepted VelocityTrigger := do
  config.validate
  return { t with config }

def setThresholds (t : VelocityTrigger) (minNote trigger : Nat) : Accepted VelocityTrigger :=
  t.withConfig { t.config with minNote, trigger }

def setInputRange (t : VelocityTrigger) (input : InputRange) : Accepted VelocityTrigger :=
  t.withConfig { t.config with input }

def setVelocityBounds (t : VelocityTrigger) (minPhysical maxPhysical : Float32) :
    Accepted VelocityTrigger := do
  let velocity := { t.config.velocity with minPhysical, maxPhysical }
  velocity.validate
  return { t with config := { t.config with velocity } }

def setDebounce (t : VelocityTrigger) (interval : Nat) : VelocityTrigger :=
  { t with config := { t.config with debounce := interval }, gate := t.gate.setInterval interval }

def setReleaseVelocity (t : VelocityTrigger) (releaseVelocity : Bool) : VelocityTrigger :=
  { t with config := { t.config with releaseVelocity } }

end VelocityTrigger

end SensorEvents
