/-!
# Debounce

A transition may be committed once an interval has passed since the last committed one. One that
is refused stays pending with the trigger, which asks again at its next evaluation, so it comes
late but is not lost. Before the first transition nothing is refused.
-/
namespace SensorEvents

structure Debounce where
  interval : Nat
  lastChange : Option Nat := none
  deriving DecidableEq, Repr

namespace Debounce

/-- Whether a transition may be committed at `now`. -/
def ready (d : Debounce) (now : Nat) : Bool :=
  match d.lastChange with
  | some last => now - last ≥ d.interval
  | none => true

/-- A transition is committed at `now`. -/
def mark (d : Debounce) (now : Nat) : Debounce := { d with lastChange := some now }

def setInterval (d : Debounce) (interval : Nat) : Debounce := { d with interval }

def reset (d : Debounce) : Debounce := { d with lastChange := none }

end Debounce

end SensorEvents
