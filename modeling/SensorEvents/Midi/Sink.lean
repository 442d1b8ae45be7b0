import SensorEvents.Fault
import SensorEvents.Midi.Binding

/-!
# The MIDI sink

The sink turns the events of channels into messages by the binding of each channel, and remembers
which channels have a note sounding. Whether a message reaches the port does not change what the
sink remembers. `lookup_place` says what a route that is put down changes: its own channel alone.
-/
namespace SensorEvents

/-- What the sink knows of a bound channel: its binding, and whether its note sounds. -/
structure MidiRoute where
  binding : MidiBinding
  held : Bool := false
  deriving DecidableEq, Repr

/-- The routes of the bound channels, in the order of the channel numbers. -/
structure MidiSink where
  routes : List (Nat × MidiRoute) := []
  deriving DecidableEq, Repr

namespace MidiSink

def empty : MidiSink := {}

/-- Put the route of a channel in its order among others, in place of the one it had. -/
def place (channel : Nat) (route : MidiRoute) : List (Nat × MidiRoute) → List (Nat × MidiRoute)
  | [] => [(channel, route)]
  | (c, r) :: routes =>
    if c < channel then (c, r) :: place channel route routes
    else if c = channel then (channel, route) :: routes
    else (channel, route) :: (c, r) :: routes

theorem lookup_cons_ite (channel other : Nat) (route : MidiRoute)
    (routes : List (Nat × MidiRoute)) :
    ((channel, route) :: routes).lookup other =
      if other = channel then some route else routes.lookup other := by
  by_cases h : other = channel
  · subst h
    simp
  · have hb : (other == channel) = false := beq_false_of_ne h
    simp [List.lookup_cons, hb, h]

theorem lookup_place (channel other : Nat) (route : MidiRoute) (routes : List (Nat × MidiRoute)) :
    (place channel route routes).lookup other =
      if other = channel then some route else routes.lookup other := by
  induction routes with
  | nil => exact lookup_cons_ite channel other route []
  | cons entry routes ih =>
    obtain ⟨c, r⟩ := entry
    by_cases hlt : c < channel
    · have hne : channel ≠ c := Nat.ne_of_gt hlt
      by_cases ho : other = channel
      · subst ho
        simp [place, hlt, lookup_cons_ite, ih, hne]
      · simp [place, hlt, lookup_cons_ite, ih, ho]
    · by_cases heq : c = channel
      · by_cases ho : other = channel <;> simp [place, heq, lookup_cons_ite, ho]
      · simp [place, hlt, heq, lookup_cons_ite]

/-- The route of a channel, if it is bound. -/
def route? (s : MidiSink) (channel : Nat) : Option MidiRoute := s.routes.lookup channel

/-- Bind a channel anew. A note that sounds under the old binding is no longer remembered. -/
def bind (s : MidiSink) (channel : Nat) (binding : MidiBinding) : MidiSink :=
  { routes := place channel { binding } s.routes }

/-- Bind a channel of any number. On the device a table of routes, three bytes each, grows up to
the channel; one that no table reaches is refused. -/
def bindWithin (s : MidiSink) (channel : Nat) (binding : MidiBinding) : Checked MidiSink :=
  if channel < Checked.tableLimit 3 then .ok (s.bind channel binding) else .error .capacity

def binding? (s : MidiSink) (channel : Nat) : Option MidiBinding :=
  (s.route? channel).map MidiRoute.binding

def isHeld (s : MidiSink) (channel : Nat) : Bool := (s.route? channel).any MidiRoute.held

def heldAfter (binding : MidiBinding) (kind : EventKind) (held : Bool) : Bool :=
  if binding.isNote then
    match kind with
    | .on => true
    | .off => false
    | .update => held
  else
    held

/-- Take an event of a channel; the messages to send come with the sink. -/
def receive (s : MidiSink) (channel : Nat) (event : Event) : MidiSink × List MidiMessage :=
  match s.route? channel with
  | none => (s, [])
  | some route =>
    match route.binding.message? event with
    | none => (s, [])
    | some message =>
      let held := heldAfter route.binding event.kind route.held
      ({ routes := place channel { route with held } s.routes }, [message])

/-- The message that ends the sounding note of a route. -/
def release (r : MidiRoute) : List MidiMessage :=
  match r.held, r.binding with
  | true, .note channel note => [.noteOff channel note 0]
  | _, _ => []

/-- End every note that sounds, in the order of the channels. -/
def allNotesOff (s : MidiSink) : MidiSink × List MidiMessage :=
  ({ routes := s.routes.map fun (channel, r) => (channel, { r with held := false }) },
    s.routes.flatMap fun (_, r) => release r)

end MidiSink

end SensorEvents
