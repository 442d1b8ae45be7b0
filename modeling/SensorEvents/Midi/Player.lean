import SensorEvents.Midi.Message

/-!
# The MIDI player

Messages are queued by the session and written by a writer that takes one command at a time, so
the two proceed in any interleaving. A stop is queued behind the messages and waits for the writer
to reach it; after that nothing is accepted. A write that fails is given up and the writer goes on.
-/
namespace SensorEvents

/-- A port that refuses some of its writes, counted from zero. -/
structure MidiPort where
  refuses : Nat → Bool := fun _ => false
  /-- The byte strings that it was asked to write, in order. -/
  offered : List (List Nat) := []

namespace MidiPort

/-- The port of which the listed writes fail. -/
def failingAt (writes : List Nat) : MidiPort := { refuses := fun n => writes.contains n }

def attempts (p : MidiPort) : Nat := p.offered.length

/-- The byte strings that got through, in order. -/
def written (p : MidiPort) : List (List Nat) :=
  (p.offered.zipIdx.filter fun offer => !p.refuses offer.2).map Prod.fst

def write (p : MidiPort) (message : MidiMessage) : MidiPort :=
  { p with offered := p.offered ++ [message.bytes] }

end MidiPort

inductive PlayerCommand where
  | send (message : MidiMessage)
  | stop
  deriving DecidableEq, Repr

inductive SendError where
  | closed
  deriving DecidableEq, Repr

def SendError.message : SendError → String
  | closed => "sending on a closed channel"

/-- A player: its port, the commands the writer has not taken, and whether the writer still
takes any. -/
structure MidiPlayer where
  name : String
  port : MidiPort
  queue : List PlayerCommand := []
  running : Bool := true

namespace MidiPlayer

def spawn (name : String) (port : MidiPort) : MidiPlayer := { name, port }

def send (p : MidiPlayer) (message : MidiMessage) : Except SendError MidiPlayer :=
  if p.running then .ok { p with queue := p.queue ++ [.send message] } else .error .closed

def work (p : MidiPlayer) : MidiPlayer :=
  if p.running then
    match p.queue with
    | [] => p
    | .send message :: queue => { p with port := p.port.write message, queue }
    | .stop :: _ => { p with queue := [], running := false }
  else
    p

def workFor (p : MidiPlayer) : Nat → MidiPlayer
  | 0 => p
  | n + 1 => p.work.workFor n

/-- Queue a stop, if there is a writer to take it. -/
def askStop (p : MidiPlayer) : MidiPlayer :=
  if p.running then { p with queue := p.queue ++ [.stop] } else p

/-- Queue a stop and wait until the writer has come to it. -/
def stop (p : MidiPlayer) : MidiPlayer := p.askStop.workFor (p.queue.length + 1)

end MidiPlayer

end SensorEvents
