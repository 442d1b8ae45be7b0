import SensorEvents.Proofs.Midi.Sink

/-!
# Releasing what sounds

A receiver of the sent messages follows each note of each MIDI channel by itself: it sounds from a
note on to the next note off. Several sensor channels may play one note, so that this is not the
same as what the sink holds; but whatever sounds is held by some channel, and ending every held
note therefore ends all that sounds.
-/
namespace SensorEvents

namespace MidiMessage

/-- Whether a note of a MIDI channel sounds after a message. -/
def sounds (channel note : Nat) (before : Bool) : MidiMessage → Bool
  | noteOn c n _ => if c = channel ∧ n = note then true else before
  | noteOff c n _ => if c = channel ∧ n = note then false else before
  | _ => before

/-- Whether a note of a MIDI channel sounds after messages. -/
def soundsAfter (channel note : Nat) (before : Bool) (sent : List MidiMessage) : Bool :=
  sent.foldl (sounds channel note) before

/-- Every note on is followed by a note off of the same note. -/
def Silenced (sent : List MidiMessage) : Prop :=
  ∀ before later channel note velocity, sent = before ++ noteOn channel note velocity :: later →
    ∃ velocity', noteOff channel note velocity' ∈ later

variable {channel note : Nat}

theorem soundsAfter_append (before : Bool) (sent later : List MidiMessage) :
    soundsAfter channel note before (sent ++ later) =
      soundsAfter channel note (soundsAfter channel note before sent) later :=
  List.foldl_append

/-- What sounds goes on sounding without a note off. -/
theorem soundsAfter_of_no_off {later : List MidiMessage}
    (h : ∀ velocity, noteOff channel note velocity ∉ later) :
    soundsAfter channel note true later = true := by
  induction later with
  | nil => rfl
  | cons m later ih =>
    have hfirst : sounds channel note true m = true := by
      cases m with
      | noteOff c n velocity =>
        refine if_neg fun ⟨hc, hn⟩ => h velocity ?_
        rw [hc, hn]
        exact List.mem_cons_self
      | noteOn c n velocity => simp [sounds]
      | _ => rfl
    unfold soundsAfter
    rw [List.foldl_cons, hfirst]
    exact ih fun velocity hmem => h velocity (List.mem_cons_of_mem _ hmem)

/-- When nothing sounds at the end, every note on was followed by a note off. -/
theorem silenced_of_soundsAfter {sent : List MidiMessage}
    (h : ∀ channel note, soundsAfter channel note false sent = false) : Silenced sent := by
  rintro before later channel note velocity rfl
  by_contra hnone
  have hend := h channel note
  rw [soundsAfter_append, soundsAfter, List.foldl_cons] at hend
  have hon : sounds channel note (soundsAfter channel note false before)
      (noteOn channel note velocity) = true := if_pos ⟨rfl, rfl⟩
  rw [hon] at hend
  have hgoes := soundsAfter_of_no_off fun velocity' hmem => hnone ⟨velocity', hmem⟩
  exact Bool.false_ne_true (hend.symm.trans hgoes)

/-- What sounds at the end was started by a note on that no note off followed, or sounded from the
beginning. -/
theorem exists_on_of_soundsAfter {before : Bool} {sent : List MidiMessage}
    (h : soundsAfter channel note before sent = true) :
    (before = true ∧ ∀ velocity, noteOff channel note velocity ∉ sent) ∨
      ∃ earlier velocity later, sent = earlier ++ noteOn channel note velocity :: later ∧
        ∀ velocity', noteOff channel note velocity' ∉ later := by
  induction sent generalizing before with
  | nil => exact Or.inl ⟨h, fun _ => List.not_mem_nil⟩
  | cons m sent ih =>
    rcases ih h with ⟨hfirst, hnone⟩ | ⟨earlier, velocity, later, rfl, hnone⟩
    · by_cases hon : ∃ velocity, m = noteOn channel note velocity
      · obtain ⟨velocity, rfl⟩ := hon
        exact Or.inr ⟨[], velocity, sent, rfl, hnone⟩
      · refine Or.inl ?_
        cases m with
        | noteOn c n velocity =>
          have hother : ¬ (c = channel ∧ n = note) :=
            fun ⟨hc, hn⟩ => hon ⟨velocity, by rw [hc, hn]⟩
          exact ⟨(if_neg hother).symm.trans hfirst, by simpa using hnone⟩
        | noteOff c n velocity =>
          simp only [sounds] at hfirst
          split_ifs at hfirst with hsame
          refine ⟨hfirst, fun velocity' hmem => ?_⟩
          rcases List.mem_cons.mp hmem with heq | hmem
          · injection heq with hc hn
            exact hsame ⟨hc.symm, hn.symm⟩
          · exact hnone velocity' hmem
        | _ => exact ⟨hfirst, by simpa using hnone⟩
    · exact Or.inr ⟨m :: earlier, velocity, later, rfl, hnone⟩

theorem silenced_iff {sent : List MidiMessage} :
    Silenced sent ↔ ∀ channel note, soundsAfter channel note false sent = false := by
  refine ⟨fun h channel note => ?_, silenced_of_soundsAfter⟩
  refine Bool.eq_false_iff.mpr fun hsounds => ?_
  rcases exists_on_of_soundsAfter hsounds with
    ⟨hbefore, -⟩ | ⟨earlier, velocity, later, hsplit, hnone⟩
  · exact Bool.false_ne_true hbefore
  · obtain ⟨velocity', hoff⟩ := h earlier later channel note velocity hsplit
    exact hnone velocity' hoff

end MidiMessage

namespace MidiSink

open MidiMessage

/-- A note of a MIDI channel is held by a channel that is bound to it. -/
def Holds (s : MidiSink) (channel note : Nat) : Prop :=
  ∃ id, s.route? id = some { binding := .note channel note, held := true }

variable {s : MidiSink} {channel note : Nat}

/-- A note that sounds after the message of an event was started by it, or sounded before and was
not ended by it. -/
theorem sounds_of_message? {binding : MidiBinding} {event : Event} {message : MidiMessage}
    {before : Bool} (hmessage : binding.message? event = some message)
    (hsounds : sounds channel note before message = true) :
    (binding = .note channel note ∧ event.kind = .on) ∨
      (before = true ∧ ¬ (binding = .note channel note ∧ event.kind = .off)) := by
  obtain ⟨kind, amount⟩ := event
  cases binding with
  | note c n =>
    cases kind <;> obtain rfl := Option.some.inj hmessage
    · by_cases hsame : c = channel ∧ n = note
      · exact Or.inl ⟨by rw [hsame.1, hsame.2], rfl⟩
      · exact Or.inr ⟨(if_neg hsame).symm.trans hsounds, fun h => nomatch h.2⟩
    · by_cases hsame : c = channel ∧ n = note
      · exact Bool.noConfusion ((if_pos hsame).symm.trans hsounds)
      · refine Or.inr ⟨(if_neg hsame).symm.trans hsounds, fun h => hsame ?_⟩
        injection h.1 with hc hn
        exact ⟨hc, hn⟩
    · exact Or.inr ⟨hsounds, fun h => nomatch h.2⟩
  | _ =>
    refine Or.inr ⟨?_, fun h => nomatch h.1⟩
    cases kind <;> simp_all [MidiBinding.message?, sounds] <;> subst hmessage <;> exact hsounds

/-- The sink holds every note that sounds after it has taken an event, if it did before. -/
theorem holds_receive {before : Bool} (h : before = true → s.Holds channel note) (id : Nat)
    (event : Event)
    (hsounds : soundsAfter channel note before (s.receive id event).2 = true) :
    (s.receive id event).1.Holds channel note := by
  have hafter := s.route?_receive id event
  cases hroute : s.route? id with
  | none =>
    simp only [receive, hroute] at hsounds ⊢
    exact h hsounds
  | some route =>
    cases hmessage : route.binding.message? event with
    | none =>
      simp only [receive, hroute, hmessage] at hsounds ⊢
      exact h hsounds
    | some message =>
      have hsent : (s.receive id event).2 = [message] := by simp only [receive, hroute, hmessage]
      rw [hsent] at hsounds
      simp only [hroute, Option.map_some, hmessage, Option.isSome_some, if_true] at hafter
      rcases sounds_of_message? hmessage hsounds with ⟨hbinding, hkind⟩ | ⟨hbefore, hkeeps⟩
      · refine ⟨id, ?_⟩
        rw [hafter, if_pos rfl, hbinding, hkind]
        rfl
      · obtain ⟨i, hi⟩ := h hbefore
        refine ⟨i, ?_⟩
        rw [hafter]
        split_ifs with hown
        · rw [hown, hroute, Option.some.injEq] at hi
          subst hi
          cases hkind : event.kind with
          | off => exact absurd ⟨rfl, hkind⟩ hkeeps
          | on => rfl
          | update => rfl
        · exact hi

theorem holds_receiveAll {before : Bool} (h : before = true → s.Holds channel note)
    (events : List ChannelEvent)
    (hsounds : soundsAfter channel note before (s.receiveAll events).2 = true) :
    (s.receiveAll events).1.Holds channel note := by
  induction events generalizing s before with
  | nil => exact h hsounds
  | cons e events ih =>
    simp only [receiveAll, soundsAfter_append] at hsounds ⊢
    exact ih (holds_receive h e.channel e.event) hsounds

theorem mem_release {m : MidiMessage} {r : MidiRoute} (h : m ∈ release r) :
    ∃ channel note, m = .noteOff channel note 0 := by
  obtain ⟨binding, held⟩ := r
  cases held <;> cases binding <;> simp_all [release]

theorem mem_allNotesOff {m : MidiMessage} (h : m ∈ s.allNotesOff.2) :
    ∃ channel note, m = .noteOff channel note 0 := by
  obtain ⟨entry, -, hm⟩ := List.mem_flatMap.mp h
  exact mem_release hm

/-- Notes off do not start a note, and end those they are for. -/
theorem soundsAfter_of_offs {before : Bool} {offs : List MidiMessage}
    (hoffs : ∀ m ∈ offs, ∃ channel note, m = .noteOff channel note 0)
    (h : before = true → .noteOff channel note 0 ∈ offs) :
    soundsAfter channel note before offs = false := by
  induction offs generalizing before with
  | nil => exact Bool.eq_false_iff.mpr fun hb => List.not_mem_nil (h hb)
  | cons m offs ih =>
    obtain ⟨⟨c, n, rfl⟩, hlater⟩ := List.forall_mem_cons.mp hoffs
    refine ih hlater ?_
    intro hb
    simp only [sounds] at hb
    split_ifs at hb with hsame
    rcases List.mem_cons.mp (h hb) with heq | hmem
    · injection heq with hc hn
      exact absurd ⟨hc.symm, hn.symm⟩ hsame
    · exact hmem

/-- Ending what is held ends all that sounds. -/
theorem soundsAfter_allNotesOff {before : Bool} (h : before = true → s.Holds channel note) :
    soundsAfter channel note before s.allNotesOff.2 = false := by
  refine soundsAfter_of_offs (fun m => mem_allNotesOff) fun hb => ?_
  obtain ⟨id, hid⟩ := h hb
  obtain ⟨first, rest, hroutes, -⟩ := List.lookup_eq_some_iff.mp hid
  refine List.mem_flatMap.mpr ⟨(id, _), hroutes ▸ List.mem_append_right _ List.mem_cons_self, ?_⟩
  exact List.mem_cons_self

/-- What was ended is not ended again. -/
theorem allNotesOff_allNotesOff (s : MidiSink) : s.allNotesOff.1.allNotesOff.2 = [] := by
  refine List.flatMap_eq_nil_iff.mpr ?_
  intro entry hentry
  obtain ⟨_, -, rfl⟩ := List.mem_map.mp hentry
  rfl

end MidiSink

end SensorEvents
