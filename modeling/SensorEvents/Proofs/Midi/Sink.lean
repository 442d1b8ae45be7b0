import SensorEvents.Proofs.Trigger.Following
import SensorEvents.Session

/-!
# The routes of a sink

What binding a channel and taking an event do to the routes of every channel. An event touches at
most whether the note of its own channel is held, and for a channel that is bound to a note that is
where its ons and offs have led.
-/
namespace SensorEvents

/-- The events of one channel. -/
def eventsOf (channel : Nat) (events : List ChannelEvent) : List Event :=
  (events.filter (·.channel = channel)).map ChannelEvent.event

theorem eventsOf_append (channel : Nat) (es later : List ChannelEvent) :
    eventsOf channel (es ++ later) = eventsOf channel es ++ eventsOf channel later := by
  simp [eventsOf]

theorem eventsOf_map (channel other : Nat) (es : List Event) :
    eventsOf channel (es.map (ChannelEvent.mk other)) = if channel = other then es else [] := by
  unfold eventsOf
  rw [List.filter_map, List.map_map]
  by_cases h : channel = other
  · subst h
    simp [Function.comp_def]
  · simp [Function.comp_def, h, Ne.symm h]

theorem eventsOf_eq_nil {channel : Nat} {events : List ChannelEvent}
    (h : ∀ e ∈ events, e.channel ≠ channel) : eventsOf channel events = [] := by
  simpa [eventsOf, List.filter_eq_nil_iff] using h

theorem mem_eventsOf {e : ChannelEvent} {events : List ChannelEvent} (h : e ∈ events) :
    e.event ∈ eventsOf e.channel events := by
  unfold eventsOf
  exact List.mem_map_of_mem (List.mem_filter.mpr ⟨h, by simp⟩)

theorem MidiBinding.isNote_iff {binding : MidiBinding} :
    binding.isNote ↔ ∃ channel note, binding = .note channel note := by
  cases binding <;> simp [isNote]

namespace MidiSink

variable (s : MidiSink) (channel : Nat)

theorem route?_bind (binding : MidiBinding) (other : Nat) :
    (s.bind channel binding).route? other =
      if other = channel then some { binding } else s.route? other :=
  lookup_place channel other _ _

/-- An event changes at most whether the note of its own channel is held. -/
theorem route?_receive (event : Event) (other : Nat) :
    (s.receive channel event).1.route? other =
      if other = channel then
        (s.route? channel).map fun r =>
          if (r.binding.message? event).isSome then
            { r with held := heldAfter r.binding event.kind r.held } else r
      else s.route? other := by
  unfold receive
  cases hroute : s.route? channel with
  | none => by_cases h : other = channel <;> simp [h, hroute]
  | some route =>
    cases hmessage : route.binding.message? event with
    | none => by_cases h : other = channel <;> simp [h, hroute, hmessage]
    | some message =>
      simp only [hmessage, Option.map_some, Option.isSome_some, if_true]
      exact lookup_place channel other _ _

theorem binding?_receive (event : Event) (other : Nat) :
    (s.receive channel event).1.binding? other = s.binding? other := by
  unfold binding?
  rw [route?_receive]
  by_cases h : other = channel
  · rw [if_pos h, h]
    cases s.route? channel with
    | none => rfl
    | some route => simp only [Option.map_some]; split_ifs <;> rfl
  · rw [if_neg h]

theorem isHeld_receive {event : Event} {route : MidiRoute} {message : MidiMessage}
    (hroute : s.route? channel = some route) (hmessage : route.binding.message? event = some message)
    (other : Nat) :
    (s.receive channel event).1.isHeld other =
      if other = channel then heldAfter route.binding event.kind route.held
      else s.isHeld other := by
  unfold isHeld
  rw [route?_receive]
  split_ifs
  · simp [hroute, hmessage]
  · rfl

theorem receiveAll_append (es later : List ChannelEvent) :
    s.receiveAll (es ++ later) =
      (((s.receiveAll es).1.receiveAll later).1,
        (s.receiveAll es).2 ++ ((s.receiveAll es).1.receiveAll later).2) := by
  induction es generalizing s with
  | nil => rfl
  | cons e es ih => simp only [List.cons_append, receiveAll, ih, List.append_assoc]

/-- Every event of a note has a message. -/
theorem message?_note (midi key : Nat) (event : Event) :
    ∃ message, (MidiBinding.note midi key).message? event = some message := by
  unfold MidiBinding.message?
  cases event.kind <;> exact ⟨_, rfl⟩

variable {s channel}

theorem route?_of_binding? {binding : MidiBinding} (h : s.binding? channel = some binding) :
    s.route? channel = some { binding, held := s.isHeld channel } := by
  unfold binding? at h
  unfold isHeld
  cases hroute : s.route? channel with
  | none => simp [hroute] at h
  | some route =>
    rw [hroute, Option.map_some, Option.some.injEq] at h
    rw [← h]
    rfl

/-- The note of a channel is held just when the ons and offs of the channel have led its gate
to on. -/
theorem isHeld_receiveAll {midi key : Nat} {events : List ChannelEvent} {after : Bool}
    (hb : s.binding? channel = some (.note midi key))
    (hgate : gateAfter? (s.isHeld channel) (eventsOf channel events) = some after) :
    (s.receiveAll events).1.isHeld channel = after := by
  induction events generalizing s with
  | nil => exact Option.some.inj hgate
  | cons e events ih =>
    refine ih (s := (s.receive e.channel e.event).1)
      ((s.binding?_receive e.channel e.event channel).trans hb) ?_
    by_cases hown : e.channel = channel
    · obtain ⟨message, hmessage⟩ := message?_note midi key e.event
      have hroute := route?_of_binding? hb
      have hheld := s.isHeld_receive channel hroute hmessage channel
      rw [if_pos rfl] at hheld
      have hevents : eventsOf channel (e :: events) = e.event :: eventsOf channel events := by
        simp [eventsOf, hown]
      rw [hevents, gateAfter?] at hgate
      rw [hown, hheld]
      cases hkind : e.event.kind <;> cases hs : s.isHeld channel <;>
        simp_all [EventKind.turn?, heldAfter, MidiBinding.isNote]
    · have hevents : eventsOf channel (e :: events) = eventsOf channel events := by
        simp [eventsOf, hown]
      have hheld : (s.receive e.channel e.event).1.isHeld channel = s.isHeld channel := by
        unfold isHeld
        rw [route?_receive, if_neg (Ne.symm hown)]
      rwa [hheld, ← hevents]

end MidiSink

namespace SensorConfig

/-- The channels from a number on are bound, each to its own output. -/
theorem route?_bindFrom (channels : List ChannelConfig) (first : Nat) (s : MidiSink) (i : Nat) :
    ((channels.zipIdx first).foldl (fun s entry => s.bind entry.2 entry.1.output) s).route? i =
      if first ≤ i ∧ i < first + channels.length then
        channels[i - first]?.map fun channel => { binding := channel.output }
      else s.route? i := by
  induction channels generalizing first s with
  | nil =>
    rw [if_neg (by simp)]
    rfl
  | cons channel channels ih =>
    rw [List.zipIdx_cons, List.foldl_cons, ih, MidiSink.route?_bind, List.length_cons]
    rcases Nat.lt_trichotomy i first with hlt | rfl | hgt
    · rw [if_neg (by omega), if_neg (by omega), if_neg (by omega)]
    · rw [if_neg (by omega), if_pos rfl, if_pos (by omega), Nat.sub_self]
      rfl
    · by_cases hin : i < first + 1 + channels.length
      · rw [if_pos (by omega), if_pos (by omega), show i - first = i - (first + 1) + 1 by omega]
        rfl
      · rw [if_neg (by omega), if_neg (by omega), if_neg (by omega)]

/-- The channels of a configuration are bound, and no others. -/
theorem route?_bindOutputs_of (c : SensorConfig) (s : MidiSink) (i : Nat) :
    (c.bindOutputs s).route? i =
      if i < c.channels.length then
        c.channels[i]?.map fun channel => { binding := channel.output }
      else s.route? i := by
  refine (route?_bindFrom c.channels 0 s i).trans ?_
  simp only [Nat.zero_le, true_and, Nat.zero_add, Nat.sub_zero]

/-- A sink that is prepared for a configuration has the outputs of its channels, and holds no
note. -/
theorem route?_bindOutputs (c : SensorConfig) (i : Nat) :
    (c.bindOutputs .empty).route? i =
      c.channels[i]?.map fun channel => { binding := channel.output } := by
  rw [route?_bindOutputs_of]
  split_ifs with hlt
  · rfl
  · rw [List.getElem?_eq_none (by omega)]
    rfl

end SensorConfig

end SensorEvents
