/-!
# Events

What a trigger reports: a gate goes on or off, or a value changes. An event keeps the number that
the trigger reports; what a receiver gets of it is its intensity, in 16 bits. One evaluation
reports at most two events, which the type of its result says.
-/
namespace SensorEvents

inductive EventKind where
  | on
  | off
  | update
  deriving DecidableEq, Repr

structure Event where
  kind : EventKind
  /-- The number that is reported, of whatever size. -/
  amount : Nat
  deriving DecidableEq, Repr

namespace Event

def intensitySize : Nat := 1 <<< 16

/-- The amount as it is delivered, cut to 16 bits. -/
def intensity (e : Event) : Nat := e.amount % intensitySize

def on (amount : Nat) : Event := ⟨.on, amount⟩

def off (amount : Nat) : Event := ⟨.off, amount⟩

def update (amount : Nat) : Event := ⟨.update, amount⟩

end Event

structure Emitted where
  events : List Event := []
  length_le : events.length ≤ 2 := by decide

namespace Emitted

def none : Emitted := {}

def one (event : Event) : Emitted := ⟨[event], by simp⟩

/-- Add an event; a third one is dropped. -/
def push (e : Emitted) (event : Event) : Emitted :=
  if h : e.events.length < 2 then ⟨e.events ++ [event], by simp; omega⟩ else e

def size (e : Emitted) : Nat := e.events.length

theorem events_push {e : Emitted} (h : e.size < 2) (event : Event) :
    (e.push event).events = e.events ++ [event] := by
  have h' : e.events.length < 2 := h
  simp [push, h']

end Emitted

end SensorEvents
