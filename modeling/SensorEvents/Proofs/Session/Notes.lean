import SensorEvents.Proofs.Midi.Release
import SensorEvents.Proofs.Session.Faultless

/-!
# Notes of a session

A trigger keeps its gate and a sink keeps what it holds, each by itself. Over a run the two agree:
the ons and offs of a channel take turns, the sink holds the note of a channel just while its gate
is on, and ending all notes ends every note that was started.
-/
namespace SensorEvents.Session

open MidiMessage (Silenced silenced_of_soundsAfter)

variable {σ : Type} {s : Session σ}

/-- Ending all notes silences a session whose sink holds whatever sounds. -/
theorem allNotesOff_silenced
    (h : ∀ channel note, MidiMessage.soundsAfter channel note false s.sent = true →
      s.sink.Holds channel note) :
    Silenced s.allNotesOff.sent ∧ s.allNotesOff.allNotesOff.sent = s.allNotesOff.sent := by
  refine ⟨silenced_of_soundsAfter ?_, ?_⟩
  · intro channel note
    unfold allNotesOff
    rw [MidiMessage.soundsAfter_append]
    exact MidiSink.soundsAfter_allNotesOff (h channel note)
  · refine (congrArg (s.allNotesOff.sent ++ ·) s.sink.allNotesOff_allNotesOff).trans ?_
    exact List.append_nil _

/-- A sink that holds the note of a channel just while its gate is on goes on doing so. -/
theorem Reached.isHeld_eq {s' : Session σ} {events : List ChannelEvent} {i midi key : Nat}
    (h : Reached s s' events) (hb : s.sink.binding? i = some (.note midi key))
    (hgate : Reported (s.sink.isHeld i) (gateAt s'.engine.channels i) (eventsOf i events)) :
    s'.sink.isHeld i = gateAt s'.engine.channels i := by
  rw [h.sink]
  exact MidiSink.isHeld_receiveAll hb hgate.follows

/-- Where nothing was held at the start, the sink holds the note of a channel just while the channel
is on. -/
theorem Reached.isHeld_eq_isOn {c : SensorConfig} {s' : Session σ} {events : List ChannelEvent}
    (h : Reached s s' events) (hsize : s.engine.channels.length = c.channels.length)
    (hsink : s.sink = c.bindOutputs .empty)
    (hgates : ∀ i, Reported false (gateAt s'.engine.channels i) (eventsOf i events)) {i : Nat}
    {channel : ChannelConfig} (hi : c.channels[i]? = some channel)
    (hnote : channel.output.isNote) :
    ∃ channel', s'.engine.channels[i]? = some channel' ∧ s'.sink.isHeld i = channel'.isOn := by
  have hlt : i < s'.engine.channels.length := by
    rw [h.size, hsize]
    exact (List.getElem?_eq_some_iff.mp hi).1
  have hchannel' := List.getElem?_eq_getElem hlt
  have hroute : s.sink.route? i = some { binding := channel.output } := by
    rw [hsink, c.route?_bindOutputs, hi]
    rfl
  have hheld : s.sink.isHeld i = false := by simp [MidiSink.isHeld, hroute]
  obtain ⟨midi, key, houtput⟩ := MidiBinding.isNote_iff.mp hnote
  have hbinding : s.sink.binding? i = some (.note midi key) := by
    simp [MidiSink.binding?, hroute, houtput]
  refine ⟨_, hchannel', ?_⟩
  rw [h.isHeld_eq hbinding (hheld ▸ hgates i)]
  simp [gateAt, hchannel']

variable [Source σ] [Elementary]

/-- Ticks bring every gate to where the delivered events lead. -/
theorem ticks_eq_ok (h : s.engine.Sound) (times : List Nat) :
    ∃ s' deliveries, s.run (times.map .tick) = .ok (s', deliveries) ∧
      Reached s s' deliveries.flatten ∧
      ∀ i, Reported (gateAt s.engine.channels i) (gateAt s'.engine.channels i)
        (eventsOf i deliveries.flatten) := by
  induction times generalizing s with
  | nil => exact ⟨s, [], rfl, .refl h, fun i => .nil _⟩
  | cons now times ih =>
    obtain ⟨s₁, events, htick, hreached, hgates, -⟩ :=
      tick_eq_ok (s := s.mapEngine fun e => { e with clock := ⟨now⟩ }) h
    obtain ⟨s', deliveries, hrun, hreached', hgates'⟩ := ih hreached.sound
    have hfirst : Reached s s₁ events :=
      ⟨hreached.sound, hreached.size, hreached.sink, hreached.sent⟩
    refine ⟨s', events :: deliveries, ?_, hfirst.trans hreached', ?_⟩
    · simp only [List.map_cons, run, call, htick, hrun, Checked.ok_bind]
      rfl
    · intro i
      rw [List.flatten_cons, eventsOf_append]
      exact (hgates i).append (hgates' i)

/-- The same after a start, which turns every gate off. -/
theorem begin_ticks_eq_ok (h : s.engine.Sound) (hoff : ∀ i, gateAt s.engine.channels i = false)
    (begun : Bool) (times : List Nat) :
    ∃ s' deliveries,
      s.run ((if begun then [.begin] else []) ++ times.map .tick) = .ok (s', deliveries) ∧
      Reached s s' deliveries.flatten ∧
      ∀ i, Reported false (gateAt s'.engine.channels i) (eventsOf i deliveries.flatten) := by
  cases begun with
  | false =>
    obtain ⟨s', deliveries, hrun, hreached, hgates⟩ := ticks_eq_ok h times
    exact ⟨s', deliveries, hrun, hreached, fun i => hoff i ▸ hgates i⟩
  | true =>
    obtain ⟨hbegin, hoff'⟩ := begin_reached h
    obtain ⟨s', deliveries, hrun, hreached, hgates⟩ := ticks_eq_ok hbegin.sound times
    refine ⟨s', [] :: deliveries, ?_, hbegin.trans hreached, fun i => hoff' i ▸ hgates i⟩
    simp only [if_true, List.singleton_append, run, call, hrun, Checked.ok_bind]
    rfl

/-- From an accepted configuration, started or not, and ticked at any times: the ons and offs of a
channel take turns and an on comes first; a channel that plays a note has it held just while it is
on; and ending all notes leaves no note on without a note off after it, and nothing to end. -/
theorem notes_follow_gates {c : SensorConfig} (hv : c.validate = .ok ()) (hf : c.Fits)
    (clock : Clock) (source : Nat → σ) (begun : Bool) (times : List Nat) :
    ∃ s s' deliveries, Session.start c clock source = .ok s ∧
      s.run ((if begun then [.begin] else []) ++ times.map .tick) = .ok (s', deliveries) ∧
      (∀ i j kind, (switches (eventsOf i deliveries.flatten))[j]? = some kind →
        kind = if j % 2 = 0 then .on else .off) ∧
      (∀ i channel, c.channels[i]? = some channel → channel.output.isNote →
        ∃ channel', s'.engine.channels[i]? = some channel' ∧
          s'.sink.isHeld i = channel'.isOn) ∧
      Silenced s'.allNotesOff.sent ∧
      s'.allNotesOff.allNotesOff.sent = s'.allNotesOff.sent := by
  obtain ⟨s, hstart, hsound, hsize, hoff, hsink, hsent⟩ := start_eq_ok hv hf clock source
  obtain ⟨s', deliveries, hrun, hreached, hgates⟩ := begin_ticks_eq_ok hsound hoff begun times
  refine ⟨s, s', deliveries, hstart, hrun, ?_, ?_, ?_⟩
  · intro i j kind hj
    rw [switches_alternate (hgates i).follows hj]
    rcases Nat.mod_two_eq_zero_or_one j with hm | hm <;> simp [hm]
  · intro i channel hi hnote
    exact hreached.isHeld_eq_isOn hsize hsink hgates hi hnote
  · refine allNotesOff_silenced ?_
    intro midi key hsounds
    rw [hreached.sent, hsent, List.nil_append] at hsounds
    rw [hreached.sink]
    exact MidiSink.holds_receiveAll Bool.noConfusion _ hsounds

end SensorEvents.Session

namespace SensorEvents

open MidiMessage (Silenced)

/-- The pad of a run is held just while it is on, and ending all notes silences it. -/
theorem padAndLever_notes_follow_gates :
    padAndLever.validate = .ok () ∧ padAndLever.Fits ∧
      letI := Elementary.linked
      ∃ (s s' : Session Scripted) (deliveries : List (List ChannelEvent)),
        Session.start padAndLever {} (fun _ => Scripted.ofList [3, 900, 4000, 100]) = .ok s ∧
        s.run [.begin, .tick 60, .tick 20, .tick 400] = .ok (s', deliveries) ∧
        (∃ pad, s'.engine.channels[0]? = some pad ∧ s'.sink.isHeld 0 = pad.isOn) ∧
        Silenced s'.allNotesOff.sent :=
  letI := Elementary.linked
  have ⟨s, s', deliveries, hstart, hrun, _, hheld, hsilenced, _⟩ :=
    Session.notes_follow_gates padAndLever_accepted padAndLever_fits {}
      (fun _ => Scripted.ofList [3, 900, 4000, 100]) true [60, 20, 400]
  ⟨padAndLever_accepted, padAndLever_fits, s, s', deliveries, hstart, hrun, hheld 0 _ rfl rfl,
    hsilenced⟩

end SensorEvents
