import Mathlib
import SensorEvents.Midi.Sink

/-!
# The encoding of messages

Status bytes are at or above 128 and data bytes below, so a stream of messages can be cut in front of
each status byte, and the pieces are the messages as they were encoded, whatever they are. The
messages that a sink sends for an accepted binding have fields in range; of these the encoding drops
no bit, and each piece reads back as its message.
-/
namespace SensorEvents

namespace MidiMessage

/-- Every field fits the bits it has in the encoding. -/
def InRange : MidiMessage → Prop
  | noteOn channel note velocity => channel ≤ 15 ∧ note ≤ 127 ∧ velocity ≤ 127
  | noteOff channel note velocity => channel ≤ 15 ∧ note ≤ 127 ∧ velocity ≤ 127
  | keyPressure channel note pressure => channel ≤ 15 ∧ note ≤ 127 ∧ pressure ≤ 127
  | controlChange channel controller value => channel ≤ 15 ∧ controller ≤ 127 ∧ value ≤ 127
  | programChange channel program => channel ≤ 15 ∧ program ≤ 127
  | channelPressure channel pressure => channel ≤ 15 ∧ pressure ≤ 127
  | pitchBend channel value => channel ≤ 15 ∧ value ≤ MidiBinding.bendMax

/-- The bytes of a message with all bits of its fields; a bend has its lower seven bits first. -/
def wholeBytes : MidiMessage → List Nat
  | noteOff channel note velocity => [0x80 + channel, note, velocity]
  | noteOn channel note velocity => [0x90 + channel, note, velocity]
  | keyPressure channel note pressure => [0xA0 + channel, note, pressure]
  | controlChange channel controller value => [0xB0 + channel, controller, value]
  | programChange channel program => [0xC0 + channel, program]
  | channelPressure channel pressure => [0xD0 + channel, pressure]
  | pitchBend channel value => [0xE0 + channel, value % 128, value / 128]

/-- One status byte, and data bytes after it. -/
def Framed (bytes : List Nat) : Prop :=
  ∃ status data, bytes = status :: data ∧ (128 ≤ status ∧ status < 256) ∧ ∀ d ∈ data, d < 128

/-- The data bytes that a stream begins with, and its pieces from one status byte to the next. -/
def cut : List Nat → List Nat × List (List Nat)
  | [] => ([], [])
  | byte :: bytes =>
    let (data, pieces) := cut bytes
    if byte < 128 then (byte :: data, pieces) else ([], (byte :: data) :: pieces)

/-- The message that a piece of a stream stands for. -/
def ofBytes? : List Nat → Option MidiMessage
  | [] => none
  | status :: data =>
    let channel := status % 16
    match status / 16, data with
    | 0x8, [note, velocity] => some (noteOff channel note velocity)
    | 0x9, [note, velocity] => some (noteOn channel note velocity)
    | 0xA, [note, pressure] => some (keyPressure channel note pressure)
    | 0xB, [controller, value] => some (controlChange channel controller value)
    | 0xC, [program] => some (programChange channel program)
    | 0xD, [pressure] => some (channelPressure channel pressure)
    | 0xE, [low, high] => some (pitchBend channel (low + 128 * high))
    | _, _ => none

/-! ## One message -/

theorem status_framed {kind : Nat} (hkind : 8 ≤ kind ∧ kind < 16) (channel : Nat) :
    128 ≤ status kind channel ∧ status kind channel < 256 := by
  have hlt : channel % 16 < 16 := Nat.mod_lt _ (by decide)
  unfold status
  omega

theorem data_lt (value : Nat) : data value < 128 := Nat.mod_lt _ (by decide)

theorem status_eq {kind channel : Nat} (h : channel ≤ 15) :
    status kind channel = kind * 16 + channel := by
  unfold status
  rw [Nat.mod_eq_of_lt (by omega)]

theorem data_eq {value : Nat} (h : value ≤ 127) : data value = value :=
  Nat.mod_eq_of_lt (by omega)

theorem framed_bytes (m : MidiMessage) : Framed m.bytes := by
  have hone (value : Nat) : ∀ d ∈ [data value], d < 128 := by
    simp [data_lt]
  have htwo (value value' : Nat) : ∀ d ∈ [data value, data value'], d < 128 := by
    simp [data_lt]
  cases m with
  | noteOn => exact ⟨_, _, rfl, status_framed (by decide) _, htwo _ _⟩
  | noteOff => exact ⟨_, _, rfl, status_framed (by decide) _, htwo _ _⟩
  | keyPressure => exact ⟨_, _, rfl, status_framed (by decide) _, htwo _ _⟩
  | controlChange => exact ⟨_, _, rfl, status_framed (by decide) _, htwo _ _⟩
  | programChange => exact ⟨_, _, rfl, status_framed (by decide) _, hone _⟩
  | channelPressure => exact ⟨_, _, rfl, status_framed (by decide) _, hone _⟩
  | pitchBend => exact ⟨_, _, rfl, status_framed (by decide) _, htwo _ _⟩

/-- Of fields in range no bit is dropped. -/
theorem bytes_eq {m : MidiMessage} (h : m.InRange) : m.bytes = m.wholeBytes := by
  cases m with
  | pitchBend channel value =>
    obtain ⟨hchannel, hvalue⟩ := h
    unfold MidiBinding.bendMax at hvalue
    have hhigh : value / 128 ≤ 127 := by omega
    simp only [bytes, wholeBytes, status_eq hchannel, data_eq hhigh]
    rfl
  | programChange => simp only [bytes, wholeBytes, status_eq h.1, data_eq h.2]
  | channelPressure => simp only [bytes, wholeBytes, status_eq h.1, data_eq h.2]
  | _ => simp only [bytes, wholeBytes, status_eq h.1, data_eq h.2.1, data_eq h.2.2]

/-- A message with fields in range reads back. -/
theorem ofBytes?_bytes {m : MidiMessage} (h : m.InRange) : ofBytes? m.bytes = some m := by
  have hstatus {kind channel : Nat} (hchannel : channel ≤ 15) :
      status kind channel / 16 = kind ∧ status kind channel % 16 = channel := by
    rw [status_eq hchannel]
    omega
  cases m with
  | pitchBend channel value =>
    obtain ⟨hchannel, hvalue⟩ := h
    unfold MidiBinding.bendMax at hvalue
    have hhalves : data value + 128 * data (value / 128) = value := by
      unfold data
      omega
    simp only [bytes, ofBytes?, hstatus hchannel, hhalves]
  | programChange => simp only [bytes, ofBytes?, hstatus h.1, data_eq h.2]
  | channelPressure => simp only [bytes, ofBytes?, hstatus h.1, data_eq h.2]
  | _ => simp only [bytes, ofBytes?, hstatus h.1, data_eq h.2.1, data_eq h.2.2]

/-! ## A stream of messages -/

theorem cut_data {data : List Nat} (h : ∀ d ∈ data, d < 128) (rest : List Nat) :
    cut (data ++ rest) = (data ++ (cut rest).1, (cut rest).2) := by
  induction data with
  | nil => rfl
  | cons d data ih =>
    obtain ⟨hd, hdata⟩ := List.forall_mem_cons.mp h
    rw [List.cons_append, cut, ih hdata]
    exact if_pos hd

/-- A piece ends where the next one begins. -/
theorem cut_framed {frame : List Nat} (h : Framed frame) (rest : List Nat) :
    cut (frame ++ rest) = ([], (frame ++ (cut rest).1) :: (cut rest).2) := by
  obtain ⟨status, data, rfl, hstatus, hdata⟩ := h
  rw [List.cons_append, cut, cut_data hdata]
  exact if_neg (Nat.not_lt.mpr hstatus.1)

/-- The pieces of a stream are its messages, one by one. -/
theorem cut_flatMap (messages : List MidiMessage) :
    cut (messages.flatMap bytes) = ([], messages.map bytes) := by
  induction messages with
  | nil => rfl
  | cons m messages ih =>
    rw [List.flatMap_cons, cut_framed m.framed_bytes, ih, List.append_nil]
    rfl

/-- Messages with fields in range are read back from their pieces. -/
theorem map_ofBytes? {messages : List MidiMessage} (h : ∀ m ∈ messages, m.InRange) :
    (messages.map bytes).map ofBytes? = messages.map some := by
  rw [List.map_map]
  exact List.map_congr_left fun m hm => ofBytes?_bytes (h m hm)

theorem eq_of_flatMap_bytes {messages messages' : List MidiMessage}
    (h : ∀ m ∈ messages, m.InRange) (h' : ∀ m ∈ messages', m.InRange)
    (hsame : messages.flatMap bytes = messages'.flatMap bytes) : messages = messages' := by
  have hpieces : messages.map bytes = messages'.map bytes := by
    have hcut := congrArg (fun stream => (cut stream).2) hsame
    simpa only [cut_flatMap] using hcut
  have hread : messages.map some = messages'.map some := by
    rw [← map_ofBytes? h, hpieces, map_ofBytes? h']
  exact List.map_injective_iff.mpr (Option.some_injective MidiMessage) hread

end MidiMessage

namespace MidiBinding

/-- The number of a binding that goes into a data byte. -/
def dataByte? : MidiBinding → Option Nat
  | note _ key => some key
  | keyPressure _ key => some key
  | controlChange _ controller => some controller
  | programChange _ program => some program
  | channelPressure _ => none
  | pitchBend _ => none

theorem checkData_eq_ok {name : String} {value : Nat} :
    checkData name value = .ok () ↔ value ≤ 127 := by
  unfold checkData
  rw [Checked.refuse_eq_ok]
  simp

theorem validate_eq_ok {b : MidiBinding} :
    b.validate = .ok () ↔ b.channel ≤ 15 ∧ ∀ value ∈ b.dataByte?, value ≤ 127 := by
  unfold validate
  simp only [Checked.throw_eq_error, Checked.error_bind, Checked.refuse_eq_ok, gt_iff_lt,
    Nat.not_lt]
  cases b <;> simp [dataByte?, checkData_eq_ok]

/-- What an accepted binding makes of an event is in range. -/
theorem message?_inRange {b : MidiBinding} (hv : b.validate = .ok ()) {event : Event}
    {m : MidiMessage} (h : b.message? event = some m) : m.InRange := by
  obtain ⟨hchannel, hdata⟩ := validate_eq_ok.mp hv
  have hintensity : min event.intensity 127 ≤ 127 := Nat.min_le_right _ _
  unfold message? at h
  cases b with
  | note channel key =>
    have hkey : key ≤ 127 := hdata key rfl
    cases hkind : event.kind <;> simp only [hkind, Option.some.injEq] at h <;> subst h <;>
      exact ⟨hchannel, hkey, hintensity⟩
  | keyPressure channel key =>
    have hkey : key ≤ 127 := hdata key rfl
    cases hkind : event.kind <;> simp only [hkind, Option.some.injEq, reduceCtorEq] at h
    subst h
    exact ⟨hchannel, hkey, hintensity⟩
  | controlChange channel controller =>
    have hcontroller : controller ≤ 127 := hdata controller rfl
    cases hkind : event.kind <;> simp only [hkind, Option.some.injEq] at h <;> subst h
    · exact ⟨hchannel, hcontroller, hintensity⟩
    · exact ⟨hchannel, hcontroller, Nat.zero_le 127⟩
    · exact ⟨hchannel, hcontroller, hintensity⟩
  | channelPressure channel =>
    cases hkind : event.kind <;> simp only [hkind, Option.some.injEq] at h <;> subst h
    · exact ⟨hchannel, hintensity⟩
    · exact ⟨hchannel, Nat.zero_le 127⟩
    · exact ⟨hchannel, hintensity⟩
  | pitchBend channel =>
    cases hkind : event.kind <;> simp only [hkind, Option.some.injEq, reduceCtorEq] at h <;> subst h
    · exact ⟨hchannel, by decide⟩
    · exact ⟨hchannel, Nat.min_le_right _ _⟩
  | programChange channel program =>
    have hprogram : program ≤ 127 := hdata program rfl
    cases hkind : event.kind <;> simp only [hkind, Option.some.injEq, reduceCtorEq] at h
    subst h
    exact ⟨hchannel, hprogram⟩

/-- What ends a held note of an accepted binding is in range. -/
theorem release_inRange {b : MidiBinding} (hv : b.validate = .ok ()) {held : Bool}
    {m : MidiMessage} (h : m ∈ MidiSink.release { binding := b, held }) : m.InRange := by
  obtain ⟨hchannel, hdata⟩ := validate_eq_ok.mp hv
  cases b with
  | note channel key =>
    cases held with
    | false => exact absurd h List.not_mem_nil
    | true =>
      obtain rfl := List.mem_singleton.mp h
      exact ⟨hchannel, hdata key rfl, Nat.zero_le 127⟩
  | _ => cases held <;> exact absurd h List.not_mem_nil

end MidiBinding

/-- The encoding keeps everything that is sent. What an accepted binding makes of an event, or ends a
held note with, has fields in range, and the encoding drops no bit of it; two lists of messages in
range with the same bytes are the same; and the bytes of every message, in range or not, are a status
byte and data bytes after it. -/
theorem MidiMessage.encoding_lossless :
    (∀ b : MidiBinding, b.validate = .ok () →
      (∀ event m, b.message? event = some m → m.InRange ∧ m.bytes = m.wholeBytes) ∧
        ∀ held, ∀ m ∈ MidiSink.release { binding := b, held },
          m.InRange ∧ m.bytes = m.wholeBytes) ∧
      (∀ messages messages' : List MidiMessage, (∀ m ∈ messages, m.InRange) →
        (∀ m ∈ messages', m.InRange) → messages.flatMap bytes = messages'.flatMap bytes →
          messages = messages') ∧
      ∀ m : MidiMessage, Framed m.bytes := by
  refine ⟨fun b hv => ⟨fun event m hm => ?_, fun held m hm => ?_⟩,
    fun _ _ => eq_of_flatMap_bytes, framed_bytes⟩
  · have hrange := b.message?_inRange hv hm
    exact ⟨hrange, bytes_eq hrange⟩
  · have hrange := b.release_inRange hv hm
    exact ⟨hrange, bytes_eq hrange⟩

/-- A stroke and a bend back to the centre, and the only messages in range that have their bytes. -/
theorem strokeAndBend_lossless :
    (MidiBinding.note 9 38).validate = .ok () ∧
      (MidiBinding.note 9 38).message? (.on 300) = some (.noteOn 9 38 127) ∧
      (MidiMessage.noteOn 9 38 127).InRange ∧
      [.noteOn 9 38 127, .pitchBend 0 8192].flatMap MidiMessage.bytes = [153, 38, 127, 224, 0, 64] ∧
      ∀ messages : List MidiMessage, (∀ m ∈ messages, m.InRange) →
        messages.flatMap MidiMessage.bytes = [153, 38, 127, 224, 0, 64] →
          messages = [.noteOn 9 38 127, .pitchBend 0 8192] := by
  obtain ⟨hbinding, hunique, -⟩ := MidiMessage.encoding_lossless
  have hv : (MidiBinding.note 9 38).validate = .ok () := rfl
  have hmessage : (MidiBinding.note 9 38).message? (.on 300) = some (.noteOn 9 38 127) := rfl
  have hstroke : (MidiMessage.noteOn 9 38 127).InRange := ((hbinding _ hv).1 _ _ hmessage).1
  have hbend : (MidiMessage.pitchBend 0 8192).InRange := ⟨by decide, by decide⟩
  have hrange : ∀ m ∈ [MidiMessage.noteOn 9 38 127, .pitchBend 0 8192], m.InRange :=
    List.forall_mem_cons.mpr ⟨hstroke, List.forall_mem_singleton.mpr hbend⟩
  exact ⟨hv, hmessage, hstroke, rfl, fun messages hmessages hsame =>
    hunique messages _ hmessages hrange hsame⟩

end SensorEvents
