import SensorEvents.Proofs.Midi.Sink

/-!
# The tables of a sink

On the device a sink keeps two tables that are indexed by channel, one with the bindings and one
with what is held. Writing an entry that a table does not have is a fault. `Represents` relates the
tables to the routes of a `MidiSink`: binding a channel and taking an event keep the tables equally
long and never write outside them.
-/
namespace SensorEvents

/-- Write an entry of a table. -/
def Checked.replace {α : Type} (table : List α) (index : Nat) (entry : α) : Checked (List α) :=
  if index < table.length then .ok (table.set index entry) else .error .index

/-- The bindings and the held notes by channel. -/
structure MidiTable where
  bindings : List (Option MidiBinding) := []
  held : List Bool := []

namespace MidiTable

/-- A table brought to a length, with a filling for new entries. -/
def resize {α : Type} (table : List α) (length : Nat) (filling : α) : List α :=
  table.take length ++ List.replicate (length - table.length) filling

/-- Make room up to a channel. -/
def grow (t : MidiTable) (channel : Nat) : MidiTable :=
  if t.bindings.length ≤ channel then
    { bindings := resize t.bindings (channel + 1) none
      held := resize t.held (channel + 1) false }
  else
    t

/-- Bind a channel. -/
def bind (t : MidiTable) (channel : Nat) (binding : MidiBinding) : Checked MidiTable := do
  let t := t.grow channel
  let bindings ← Checked.replace t.bindings channel (some binding)
  let held ← Checked.replace t.held channel false
  return { bindings, held }

def binding? (t : MidiTable) (channel : Nat) : Option MidiBinding := t.bindings[channel]?.join

def isHeld (t : MidiTable) (channel : Nat) : Bool := t.held[channel]?.getD false

/-- Take an event of a channel. -/
def receive (t : MidiTable) (channel : Nat) (event : Event) :
    Checked (MidiTable × List MidiMessage) :=
  match t.binding? channel with
  | none => .ok (t, [])
  | some binding =>
    match binding.message? event with
    | none => .ok (t, [])
    | some message =>
      match binding.isNote, event.kind with
      | true, .on => do
        let held ← Checked.replace t.held channel true
        return ({ t with held }, [message])
      | true, .off => do
        let held ← Checked.replace t.held channel false
        return ({ t with held }, [message])
      | _, _ => .ok (t, [message])

/-- Take events one after the other. -/
def receiveAll (t : MidiTable) : List ChannelEvent → Checked (MidiTable × List MidiMessage)
  | [] => .ok (t, [])
  | e :: events => do
    let (t, messages) ← t.receive e.channel e.event
    let (t, later) ← t.receiveAll events
    return (t, messages ++ later)

/-- The tables say of every channel what the routes of the sink say. -/
structure Represents (t : MidiTable) (s : MidiSink) : Prop where
  length_eq : t.held.length = t.bindings.length
  binding_eq : ∀ channel, t.binding? channel = s.binding? channel
  held_eq : ∀ channel, t.isHeld channel = s.isHeld channel

end MidiTable

/-- The tables of a configuration, with every output bound. -/
def SensorConfig.bindTable (c : SensorConfig) : Checked MidiTable :=
  c.placed.foldlM (fun t (channel, i) => t.bind i channel.output) {}

theorem Checked.replace_eq_ok {α : Type} {table : List α} {index : Nat} (h : index < table.length)
    (entry : α) : Checked.replace table index entry = .ok (table.set index entry) := if_pos h

namespace MidiTable

variable {t : MidiTable} {s : MidiSink}

theorem represents_empty : Represents {} .empty := ⟨rfl, fun _ => rfl, fun _ => rfl⟩

theorem length_resize {α : Type} (table : List α) (length : Nat) (filling : α) :
    (resize table length filling).length = length := by
  simp only [resize, List.length_append, List.length_take, List.length_replicate]
  omega

theorem getElem?_resize {α : Type} {table : List α} {length : Nat} {filling : α}
    (h : table.length ≤ length) (i : Nat) :
    (resize table length filling)[i]? =
      if i < table.length then table[i]? else if i < length then some filling else none := by
  unfold resize
  rw [List.take_of_length_le h, List.getElem?_append]
  split_ifs with hlow hhigh
  · rfl
  · rw [List.getElem?_replicate, if_pos (by omega)]
  · rw [List.getElem?_replicate, if_neg (by omega)]

/-- A new entry is not seen where a filling is seen as no entry. -/
theorem resize_unseen {α β : Type} {table : List α} {length : Nat} {filling : α}
    (h : table.length ≤ length) (see : Option α → β) (hsee : see (some filling) = see none)
    (i : Nat) : see (resize table length filling)[i]? = see table[i]? := by
  rw [getElem?_resize h]
  split_ifs with hlow hhigh
  · rfl
  · rw [hsee, List.getElem?_eq_none (by omega)]
  · rw [List.getElem?_eq_none (by omega)]

/-- Making room changes nothing that can be seen. -/
theorem Represents.grow (h : Represents t s) (channel : Nat) :
    Represents (t.grow channel) s ∧ channel < (t.grow channel).bindings.length := by
  obtain ⟨hlength, hbinding, hheld⟩ := h
  unfold MidiTable.grow
  split_ifs with hroom
  · refine ⟨⟨?_, ?_, ?_⟩, ?_⟩
    · rw [length_resize, length_resize]
    · intro c
      rw [← hbinding c]
      exact resize_unseen (by omega) Option.join rfl c
    · intro c
      rw [← hheld c]
      exact resize_unseen (by omega) (Option.getD · false) rfl c
    · rw [length_resize]
      exact Nat.lt_succ_self channel
  · exact ⟨⟨hlength, hbinding, hheld⟩, Nat.not_le.mp hroom⟩

theorem getElem?_set_of_lt {α : Type} {table : List α} {index : Nat} (h : index < table.length)
    (entry : α) (i : Nat) :
    (table.set index entry)[i]? = if i = index then some entry else table[i]? := by
  rw [List.getElem?_set, if_pos h]
  simp only [eq_comm]

/-- A channel is bound inside the tables. -/
theorem Represents.bind (h : Represents t s) (channel : Nat) (binding : MidiBinding) :
    ∃ t', t.bind channel binding = .ok t' ∧ Represents t' (s.bind channel binding) := by
  obtain ⟨⟨hlength, hbinding, hheld⟩, hroom⟩ := h.grow channel
  have hroom' : channel < (t.grow channel).held.length := hlength ▸ hroom
  refine ⟨{ bindings := (t.grow channel).bindings.set channel (some binding),
            held := (t.grow channel).held.set channel false }, ?_, ?_, ?_, ?_⟩
  · unfold MidiTable.bind
    simp only [Checked.replace_eq_ok hroom, Checked.replace_eq_ok hroom', Checked.ok_bind]
    rfl
  · rw [List.length_set, List.length_set, hlength]
  · intro c
    have hc := hbinding c
    simp only [binding?, MidiSink.binding?, MidiSink.route?_bind] at hc ⊢
    rw [getElem?_set_of_lt hroom]
    split_ifs
    · rfl
    · exact hc
  · intro c
    have hc := hheld c
    simp only [isHeld, MidiSink.isHeld, MidiSink.route?_bind] at hc ⊢
    rw [getElem?_set_of_lt hroom']
    split_ifs
    · rfl
    · exact hc

/-- A bound channel has an entry in the table of what is held. -/
theorem Represents.lt_length (h : Represents t s) {channel : Nat} {binding : MidiBinding}
    (hb : t.binding? channel = some binding) : channel < t.held.length := by
  rw [h.length_eq]
  by_contra hge
  rw [binding?, List.getElem?_eq_none (Nat.not_lt.mp hge)] at hb
  exact Option.some_ne_none binding hb.symm

section Receive

variable {channel : Nat} {event : Event} {route : MidiRoute} {message : MidiMessage}

/-- A message after which as much is held as before leaves the tables alone. -/
theorem Represents.keep (h : Represents t s) (hroute : s.route? channel = some route)
    (hmessage : route.binding.message? event = some message)
    (hkeep : MidiSink.heldAfter route.binding event.kind route.held = route.held) :
    Represents t (s.receive channel event).1 := by
  refine ⟨h.length_eq, ?_, ?_⟩
  · intro c
    exact (h.binding_eq c).trans (s.binding?_receive channel event c).symm
  · intro c
    rw [s.isHeld_receive channel hroute hmessage, hkeep, h.held_eq]
    split_ifs with hc
    · rw [hc, MidiSink.isHeld, hroute, Option.any_some]
    · rfl

/-- A message that turns a note on or off is written into the table of what is held. -/
theorem Represents.write (h : Represents t s) (hroute : s.route? channel = some route)
    (hmessage : route.binding.message? event = some message) (hlt : channel < t.held.length) :
    Represents
      { t with
        held := t.held.set channel (MidiSink.heldAfter route.binding event.kind route.held) }
      (s.receive channel event).1 := by
  refine ⟨?_, ?_, ?_⟩
  · rw [List.length_set, h.length_eq]
  · intro c
    rw [s.binding?_receive, ← h.binding_eq]
    rfl
  · intro c
    have hc := h.held_eq c
    rw [s.isHeld_receive channel hroute hmessage, ← hc, isHeld, getElem?_set_of_lt hlt]
    split_ifs <;> rfl

end Receive

/-- An event is taken inside the tables, with the messages of the sink. -/
theorem Represents.receive (h : Represents t s) (channel : Nat) (event : Event) :
    ∃ t', t.receive channel event = .ok (t', (s.receive channel event).2) ∧
      Represents t' (s.receive channel event).1 := by
  have hbinding := h.binding_eq channel
  unfold MidiSink.binding? at hbinding
  unfold MidiTable.receive
  cases hroute : s.route? channel with
  | none =>
    rw [hroute] at hbinding
    simp only [hbinding, Option.map_none, MidiSink.receive, hroute]
    exact ⟨t, rfl, h⟩
  | some route =>
    rw [hroute, Option.map_some] at hbinding
    simp only [hbinding]
    cases hmessage : route.binding.message? event with
    | none =>
      simp only [MidiSink.receive, hroute, hmessage]
      exact ⟨t, rfl, h⟩
    | some message =>
      have hlt := h.lt_length hbinding
      have hwrite := h.write hroute hmessage hlt
      have hsent : (s.receive channel event).2 = [message] := by
        simp only [MidiSink.receive, hroute, hmessage]
      rw [hsent]
      -- only ons and offs of notes are written down
      cases hnote : route.binding.isNote with
      | false => exact ⟨t, rfl, h.keep hroute hmessage (by simp [MidiSink.heldAfter, hnote])⟩
      | true =>
        cases hkind : event.kind with
        | on =>
          have hheld : MidiSink.heldAfter route.binding event.kind route.held = true := by
            simp [MidiSink.heldAfter, hnote, hkind]
          simp only [Checked.replace_eq_ok hlt, Checked.ok_bind]
          exact ⟨_, rfl, hheld ▸ hwrite⟩
        | off =>
          have hheld : MidiSink.heldAfter route.binding event.kind route.held = false := by
            simp [MidiSink.heldAfter, hnote, hkind]
          simp only [Checked.replace_eq_ok hlt, Checked.ok_bind]
          exact ⟨_, rfl, hheld ▸ hwrite⟩
        | update =>
          exact ⟨t, rfl, h.keep hroute hmessage (by simp [MidiSink.heldAfter, hnote, hkind])⟩

theorem Represents.receiveAll (h : Represents t s) (events : List ChannelEvent) :
    ∃ t', t.receiveAll events = .ok (t', (s.receiveAll events).2) ∧
      Represents t' (s.receiveAll events).1 := by
  induction events generalizing t s with
  | nil => exact ⟨t, rfl, h⟩
  | cons e events ih =>
    obtain ⟨t₁, hfirst, h₁⟩ := h.receive e.channel e.event
    obtain ⟨t₂, hlater, h₂⟩ := ih h₁
    refine ⟨t₂, ?_, h₂⟩
    simp only [MidiTable.receiveAll, hfirst, hlater, Checked.ok_bind]
    rfl

end MidiTable

/-- Binding the outputs of a configuration stays inside the tables. -/
theorem SensorConfig.bindTable_eq_ok (c : SensorConfig) :
    ∃ t, c.bindTable = .ok t ∧ t.Represents (c.bindOutputs .empty) := by
  suffices h : ∀ (placed : List (ChannelConfig × Nat)) (t : MidiTable) (s : MidiSink),
      t.Represents s →
      ∃ t', placed.foldlM (fun t (channel, i) => t.bind i channel.output) t = .ok t' ∧
        t'.Represents (placed.foldl (fun s (channel, i) => s.bind i channel.output) s) from
    h c.placed {} .empty MidiTable.represents_empty
  intro placed
  induction placed with
  | nil => exact fun t _ h => ⟨t, rfl, h⟩
  | cons entry placed ih =>
    intro t s h
    obtain ⟨t₁, hbind, h₁⟩ := h.bind entry.2 entry.1.output
    obtain ⟨t', hlater, h'⟩ := ih t₁ _ h₁
    refine ⟨t', ?_, h'⟩
    rw [List.foldlM_cons]
    simp only [hbind, Checked.ok_bind]
    exact hlater

end SensorEvents
