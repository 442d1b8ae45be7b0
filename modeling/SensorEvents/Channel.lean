import SensorEvents.Conditioning.Conditioner
import SensorEvents.Conditioning.Hysteresis
import SensorEvents.Trigger.Trigger

/-!
# Channels

A channel is the way from one sensor to events: a conditioner, an optional hysteresis and a
trigger. Nothing happens until the conditioner's poll interval has passed; then the trigger sees
the value even if it did not change, so that a transition the debounce held back gets another
chance.
-/
namespace SensorEvents

structure Channel (σ : Type) where
  name : String
  conditioner : Conditioner (Feed σ)
  hysteresis : Option Hysteresis
  trigger : Trigger
  /-- The value that the trigger saw last. -/
  value : Nat := 0

namespace Channel

variable {σ : Type} [Source σ]

/-- A channel of finished stages. The hysteresis takes values of the conditioner's precision. -/
def assemble (name : String) (conditioner : Conditioner (Feed σ))
    (hysteresis : Option Hysteresis) (trigger : Trigger) : Accepted (Channel σ) := do
  if let some h := hysteresis then
    if h.inputBits ≠ conditioner.precision then
      throw (.hysteresisPrecision h.inputBits conditioner.precision)
  return { name, conditioner, hysteresis, trigger }

/-- The value for the trigger: the conditioned one, or the level of the hysteresis brought back to
the conditioner's precision. -/
def quantize (hysteresis : Option Hysteresis) (conditioned precision : Nat) :
    Checked (Nat × Option Hysteresis) :=
  match hysteresis with
  | none => .ok (conditioned, none)
  | some h => do
    let (_, h) ← h.update conditioned
    let width ← h.outputBits
    let value ← BitDepth.widen h.level width precision
    return (value, some h)

def tick [Elementary] (c : Channel σ) (now : Nat) : Checked (Channel σ × List Event) := do
  let (polled, conditioner) ← c.conditioner.poll now
  match polled with
  | none => return ({ c with conditioner }, [])
  | some _ =>
    let (value, hysteresis) ← quantize c.hysteresis conditioner.value conditioner.precision
    let (trigger, emitted) ← c.trigger.evaluate value now
    return ({ c with conditioner, hysteresis, trigger, value }, emitted.events)

def begin (c : Channel σ) : Channel σ :=
  { c with conditioner := c.conditioner.begin, trigger := c.trigger.reset }

def resetBaseline (c : Channel σ) : Channel σ :=
  { c with conditioner := c.conditioner.resetBaseline }

def isOn (c : Channel σ) : Bool := c.trigger.isOn

def mapSource (f : σ → σ) (c : Channel σ) : Channel σ :=
  { c with conditioner := c.conditioner.mapSource (Feed.mapSource f) }

end Channel

end SensorEvents
