import SensorEvents.Proofs.Midi.Release
import SensorEvents.Proofs.Midi.TableRelease

/-!
# Binding a channel anew

A sink is bound, given events and told to end its notes in any order. A channel that is bound anew
while its note sounds gives the note up without ending it. Such an orphaned note is all that goes on
sounding when the sink ends what it holds, and it does so unless some channel holds that note again.
-/
namespace SensorEvents

/-- What a sink is told. -/
inductive SinkCall where
  | bind (channel : Nat) (binding : MidiBinding)
  | event (channel : Nat) (event : Event)
  | allNotesOff

namespace MidiSink

/-- Carry out a call; the messages come with the sink. A channel that no table reaches is refused,
which changes nothing. -/
def call (s : MidiSink) : SinkCall → MidiSink × List MidiMessage
  | .bind channel binding =>
    match s.bindWithin channel binding with
    | .ok s => (s, [])
    | .error _ => (s, [])
  | .event channel event => s.receive channel event
  | .allNotesOff => s.allNotesOff

/-- Carry out calls one after the other. -/
def run (s : MidiSink) : List SinkCall → MidiSink × List MidiMessage
  | [] => (s, [])
  | call :: calls =>
    let (s, sent) := s.call call
    let (s, later) := s.run calls
    (s, sent ++ later)

theorem call_bind (s : MidiSink) (channel : Nat) (binding : MidiBinding) :
    s.call (.bind channel binding) =
      (if channel < Checked.tableLimit 3 then s.bind channel binding else s, []) := by
  simp only [call, bindWithin]
  split_ifs <;> rfl

end MidiSink

namespace MidiTable

/-- Bind a channel of any number. -/
def bindWithin (t : MidiTable) (channel : Nat) (binding : MidiBinding) : Checked MidiTable :=
  if channel < Checked.tableLimit 3 then t.bind channel binding else .error .capacity

def call (t : MidiTable) : SinkCall → Checked (MidiTable × List MidiMessage)
  | .bind channel binding =>
    match t.bindWithin channel binding with
    | .ok t => .ok (t, [])
    | .error .capacity => .ok (t, [])
    | .error fault => .error fault
  | .event channel event => t.receive channel event
  | .allNotesOff => t.allNotesOff

def run (t : MidiTable) : List SinkCall → Checked (MidiTable × List MidiMessage)
  | [] => .ok (t, [])
  | call :: calls => do
    let (t, sent) ← t.call call
    let (t, later) ← t.run calls
    return (t, sent ++ later)

variable {t : MidiTable} {s : MidiSink}

/-- A call is carried out inside the tables, with the messages of the sink. -/
theorem Represents.call (h : Represents t s) (hs : s.Sorted) (c : SinkCall) :
    ∃ t', t.call c = .ok (t', (s.call c).2) ∧ Represents t' (s.call c).1 ∧ (s.call c).1.Sorted := by
  cases c with
  | bind channel binding =>
    rw [s.call_bind]
    simp only [MidiTable.call, bindWithin]
    split_ifs
    · obtain ⟨t', hbind, h'⟩ := h.bind channel binding
      rw [hbind]
      exact ⟨t', rfl, h', hs.bind channel binding⟩
    · exact ⟨t, rfl, h, hs⟩
  | event channel event =>
    obtain ⟨t', hreceive, h'⟩ := h.receive channel event
    exact ⟨t', hreceive, h', hs.receive channel event⟩
  | allNotesOff =>
    obtain ⟨t', hrelease, h'⟩ := h.allNotesOff hs
    exact ⟨t', hrelease, h', hs.allNotesOff⟩

theorem Represents.run (h : Represents t s) (hs : s.Sorted) (calls : List SinkCall) :
    ∃ t', t.run calls = .ok (t', (s.run calls).2) ∧ Represents t' (s.run calls).1 ∧
      (s.run calls).1.Sorted := by
  induction calls generalizing t s with
  | nil => exact ⟨t, rfl, h, hs⟩
  | cons c calls ih =>
    obtain ⟨t₁, hcall, h₁, hs₁⟩ := h.call hs c
    obtain ⟨t₂, hrun, h₂, hs₂⟩ := ih h₁ hs₁
    refine ⟨t₂, ?_, h₂, hs₂⟩
    simp only [MidiTable.run, hcall, hrun, Checked.ok_bind]
    rfl

end MidiTable

namespace MidiSink

open MidiMessage

/-- A channel gave up the note while it sounded, and no message has ended it since. -/
def Orphaned (calls : List SinkCall) (channel note : Nat) : Prop :=
  ∃ early id binding late, calls = early ++ .bind id binding :: late ∧
    id < Checked.tableLimit 3 ∧
    (empty.run early).1.route? id = some { binding := .note channel note, held := true } ∧
    soundsAfter channel note false (empty.run early).2 = true ∧
    ∀ velocity, .noteOff channel note velocity ∉
      (((empty.run early).1.bind id binding).run late).2

variable {s : MidiSink} {channel note : Nat} {calls : List SinkCall}

theorem run_append (s : MidiSink) (calls later : List SinkCall) :
    s.run (calls ++ later) =
      (((s.run calls).1.run later).1, (s.run calls).2 ++ ((s.run calls).1.run later).2) := by
  induction calls generalizing s with
  | nil => rfl
  | cons c calls ih => simp only [List.cons_append, run, ih, List.append_assoc]

theorem run_singleton (s : MidiSink) (c : SinkCall) : s.run [c] = s.call c := by
  simp only [run, List.append_nil]

theorem run_bound {id : Nat} (hid : id < Checked.tableLimit 3) (s : MidiSink)
    (early late : List SinkCall) (binding : MidiBinding) :
    s.run (early ++ .bind id binding :: late) =
      ((((s.run early).1.bind id binding).run late).1,
        (s.run early).2 ++ (((s.run early).1.bind id binding).run late).2) := by
  simp only [run_append, run, call_bind, if_pos hid, List.nil_append]

/-- A call after which a note sounds has not ended it. -/
theorem no_off_of_soundsAfter {before : Bool} {c : SinkCall}
    (h : soundsAfter channel note before (s.call c).2 = true) (velocity : Nat) :
    .noteOff channel note velocity ∉ (s.call c).2 := by
  intro hoff
  cases c with
  | bind id binding =>
    rw [call_bind] at hoff
    exact List.not_mem_nil hoff
  | event id event =>
    simp only [call, receive] at h hoff
    cases hroute : s.route? id with
    | none => simp [hroute] at hoff
    | some route =>
      cases hmessage : route.binding.message? event with
      | none => simp [hroute, hmessage] at hoff
      | some message =>
        simp only [hroute, hmessage, List.mem_singleton] at h hoff
        subst hoff
        exact Bool.false_ne_true ((if_pos ⟨rfl, rfl⟩).symm.trans h)
  | allNotesOff =>
    obtain ⟨c, n, heq⟩ := mem_allNotesOff hoff
    injection heq with hc hn hvelocity
    subst hvelocity
    have hended := soundsAfter_of_offs (fun m => mem_allNotesOff) fun _ : before = true => hoff
    exact Bool.false_ne_true (hended.symm.trans h)

/-- An orphaned note stays one until a message ends it. -/
theorem Orphaned.snoc (h : Orphaned calls channel note) {c : SinkCall}
    (hsounds : soundsAfter channel note (soundsAfter channel note false (empty.run calls).2)
      ((empty.run calls).1.call c).2 = true) : Orphaned (calls ++ [c]) channel note := by
  obtain ⟨early, id, binding, late, rfl, hid, hroute, hbefore, hnone⟩ := h
  refine ⟨early, id, binding, late ++ [c], by simp, hid, hroute, hbefore, fun velocity hmem => ?_⟩
  rw [run_append, run_singleton] at hmem
  rcases List.mem_append.mp hmem with hearly | hlast
  · exact hnone velocity hearly
  · rw [run_bound hid] at hsounds
    exact no_off_of_soundsAfter hsounds velocity hlast

theorem Orphaned.soundsAfter (h : Orphaned calls channel note) :
    soundsAfter channel note false (empty.run calls).2 = true := by
  obtain ⟨early, id, binding, late, rfl, hid, -, hbefore, hnone⟩ := h
  rw [run_bound hid, soundsAfter_append, hbefore]
  exact soundsAfter_of_no_off hnone

/-- What sounds is held by a channel, or orphaned. -/
theorem holds_or_orphaned (calls : List SinkCall)
    (h : soundsAfter channel note false (empty.run calls).2 = true) :
    (empty.run calls).1.Holds channel note ∨ Orphaned calls channel note := by
  induction calls using List.reverseRecOn with
  | nil => exact Bool.noConfusion h
  | append_singleton calls c ih =>
    rw [run_append, run_singleton, soundsAfter_append] at h
    -- once orphaned the note stays so, and otherwise a holder is lost to a bind alone
    by_cases horphaned : Orphaned calls channel note
    · exact Or.inr (horphaned.snoc h)
    have hheld (hbefore : soundsAfter channel note false (empty.run calls).2 = true) :
        (empty.run calls).1.Holds channel note :=
      (ih hbefore).resolve_right horphaned
    rw [run_append, run_singleton]
    cases c with
    | bind id binding =>
      have hbefore : soundsAfter channel note false (empty.run calls).2 = true := by
        rwa [call_bind] at h
      obtain ⟨i, hi⟩ := hheld hbefore
      rw [call_bind]
      split_ifs with hid
      · by_cases hsame : i = id
        · subst hsame
          exact Or.inr ⟨calls, i, binding, [], rfl, hid, hi, hbefore, fun _ => List.not_mem_nil⟩
        · refine Or.inl ⟨i, ?_⟩
          rw [route?_bind, if_neg hsame]
          exact hi
      · exact Or.inl ⟨i, hi⟩
    | event id event => exact Or.inl (holds_receive hheld id event h)
    | allNotesOff => exact absurd h (Bool.eq_false_iff.mp (soundsAfter_allNotesOff hheld))

/-- A note that the sink ends is one that it holds. -/
theorem holds_of_mem_allNotesOff (hs : s.Sorted) {velocity : Nat}
    (h : .noteOff channel note velocity ∈ s.allNotesOff.2) : s.Holds channel note := by
  obtain ⟨⟨id, binding, held⟩, hmem, hrelease⟩ := List.mem_flatMap.mp h
  refine ⟨id, (hs.route?_of_mem hmem).trans ?_⟩
  cases held <;> cases binding <;> simp_all [release]

/-- Whatever a sink is told, its tables are equally long and nothing is read or written outside
them. Ending what it holds silences all that it started just when every orphaned note is held
again. -/
theorem allNotesOff_silences_iff (calls : List SinkCall) :
    (∃ t t', MidiTable.run {} calls = .ok (t, (empty.run calls).2) ∧
      t.held.length = t.bindings.length ∧
      t.allNotesOff = .ok (t', (empty.run calls).1.allNotesOff.2) ∧
      t'.held.length = t'.bindings.length) ∧
    (Silenced ((empty.run calls).2 ++ (empty.run calls).1.allNotesOff.2) ↔
      ∀ channel note, Orphaned calls channel note → (empty.run calls).1.Holds channel note) := by
  obtain ⟨t, hrun, hrepresents, hsorted⟩ := MidiTable.represents_empty.run sorted_empty calls
  obtain ⟨t', hrelease, hrepresents'⟩ := hrepresents.allNotesOff hsorted
  refine ⟨⟨t, t', hrun, hrepresents.length_eq, hrelease, hrepresents'.length_eq⟩, ?_, ?_⟩
  · intro hsilenced channel note horphaned
    have hend := silenced_iff.mp hsilenced channel note
    rw [soundsAfter_append, horphaned.soundsAfter] at hend
    by_contra hheld
    refine Bool.false_ne_true (hend.symm.trans (soundsAfter_of_no_off fun velocity hoff => ?_))
    exact hheld (holds_of_mem_allNotesOff hsorted hoff)
  · intro hheld
    refine silenced_iff.mpr fun channel note => ?_
    rw [soundsAfter_append]
    refine soundsAfter_allNotesOff fun hsounds => ?_
    rcases holds_or_orphaned calls hsounds with hholds | horphaned
    · exact hholds
    · exact hheld channel note horphaned

/-- A channel that is bound to another note while the first one sounds. -/
def rebindingCalls : List SinkCall :=
  [.bind 0 (.note 0 60), .event 0 (.on 100), .bind 0 (.note 0 61)]

/-- The first note is never ended. -/
theorem rebinding_keeps_sounding :
    (empty.run rebindingCalls).2 ++ (empty.run rebindingCalls).1.allNotesOff.2 =
        [.noteOn 0 60 100] ∧
      ¬ Silenced
        ((empty.run rebindingCalls).2 ++ (empty.run rebindingCalls).1.allNotesOff.2) := by
  have hsent : (empty.run rebindingCalls).2 ++ (empty.run rebindingCalls).1.allNotesOff.2 =
      [.noteOn 0 60 100] := rfl
  rw [hsent]
  refine ⟨rfl, fun h => ?_⟩
  obtain ⟨velocity, hmem⟩ := h [] [] 0 60 100 rfl
  exact List.not_mem_nil hmem

end MidiSink

end SensorEvents
