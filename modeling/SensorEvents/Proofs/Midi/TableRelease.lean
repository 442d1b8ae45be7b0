import SensorEvents.Proofs.Midi.Table

/-!
# Ending notes from the tables

On the device the held notes are ended by a walk over the tables, entry by entry. The walk stays
inside them and sends what the sink sends, in the same order: a sink keeps its routes in the order
of their channels, and an entry without a route has nothing to end.
-/
namespace SensorEvents

/-- Read an entry of a table. -/
def Checked.entry {α : Type} (table : List α) (index : Nat) : Checked α :=
  match table[index]? with
  | some entry => .ok entry
  | none => .error .index

namespace MidiTable

/-- End the note of an entry, if it is held. -/
def releaseAt (t : MidiTable) (index : Nat) : Checked (MidiTable × List MidiMessage) := do
  if ← Checked.entry t.held index then
    let binding ← Checked.entry t.bindings index
    let messages := match binding with
      | some (.note channel note) => [.noteOff channel note 0]
      | _ => []
    let held ← Checked.replace t.held index false
    return ({ t with held }, messages)
  else
    return (t, [])

/-- End the notes of `count` entries from `index` on. -/
def releaseFrom (index : Nat) : Nat → MidiTable → Checked (MidiTable × List MidiMessage)
  | 0, t => .ok (t, [])
  | count + 1, t => do
    let (t, messages) ← t.releaseAt index
    let (t, later) ← releaseFrom (index + 1) count t
    return (t, messages ++ later)

/-- End every note that sounds. -/
def allNotesOff (t : MidiTable) : Checked (MidiTable × List MidiMessage) :=
  releaseFrom 0 t.bindings.length t

/-- What ends the note of a channel. -/
def ending (t : MidiTable) (channel : Nat) : List MidiMessage :=
  match t.isHeld channel, t.binding? channel with
  | true, some (.note channel note) => [.noteOff channel note 0]
  | _, _ => []

end MidiTable

theorem Checked.entry_eq_ok {α : Type} {table : List α} {index : Nat} (h : index < table.length) :
    Checked.entry table index = .ok table[index] := by
  unfold Checked.entry
  rw [List.getElem?_eq_getElem h]

namespace MidiSink

/-- The routes stand in the order of their channels. -/
def Sorted (s : MidiSink) : Prop := s.routes.Pairwise (·.1 < ·.1)

theorem mem_place {channel : Nat} {route : MidiRoute} {routes : List (Nat × MidiRoute)}
    {e : Nat × MidiRoute} (h : e ∈ place channel route routes) :
    e = (channel, route) ∨ e ∈ routes := by
  induction routes with
  | nil => exact Or.inl (List.mem_singleton.mp h)
  | cons first routes ih =>
    obtain ⟨c, r⟩ := first
    unfold place at h
    split_ifs at h
    · rcases List.mem_cons.mp h with rfl | hlater
      · exact Or.inr List.mem_cons_self
      · exact (ih hlater).imp_right (List.mem_cons_of_mem _)
    · exact (List.mem_cons.mp h).imp_right (List.mem_cons_of_mem _)
    · exact List.mem_cons.mp h

theorem pairwise_place {channel : Nat} (route : MidiRoute) {routes : List (Nat × MidiRoute)}
    (h : routes.Pairwise (·.1 < ·.1)) : (place channel route routes).Pairwise (·.1 < ·.1) := by
  induction routes with
  | nil => exact List.pairwise_singleton _ _
  | cons first routes ih =>
    obtain ⟨c, r⟩ := first
    obtain ⟨hfirst, hlater⟩ := List.pairwise_cons.mp h
    unfold place
    split_ifs with hlt heq
    · refine List.pairwise_cons.mpr ⟨fun e he => ?_, ih hlater⟩
      rcases mem_place he with rfl | hmem
      · exact hlt
      · exact hfirst e hmem
    · subst heq
      exact List.pairwise_cons.mpr ⟨hfirst, hlater⟩
    · have hgt : channel < c := by omega
      refine List.pairwise_cons.mpr ⟨fun e he => ?_, h⟩
      rcases List.mem_cons.mp he with rfl | hmem
      · exact hgt
      · exact hgt.trans (hfirst e hmem)

variable {s : MidiSink}

theorem sorted_empty : empty.Sorted := List.Pairwise.nil

theorem Sorted.bind (h : s.Sorted) (channel : Nat) (binding : MidiBinding) :
    (s.bind channel binding).Sorted := pairwise_place _ h

theorem Sorted.receive (h : s.Sorted) (channel : Nat) (event : Event) :
    (s.receive channel event).1.Sorted := by
  unfold MidiSink.receive
  split
  · exact h
  · split
    · exact h
    · exact pairwise_place _ h

theorem Sorted.allNotesOff (h : s.Sorted) : s.allNotesOff.1.Sorted :=
  List.pairwise_map.mpr h

/-- A route among sorted ones is the route of its channel. -/
theorem Sorted.route?_of_mem (h : s.Sorted) {channel : Nat} {route : MidiRoute}
    (hmem : (channel, route) ∈ s.routes) : s.route? channel = some route := by
  obtain ⟨routes⟩ := s
  unfold route?
  induction routes with
  | nil => exact absurd hmem List.not_mem_nil
  | cons first routes ih =>
    obtain ⟨c, r⟩ := first
    obtain ⟨hfirst, hlater⟩ := List.pairwise_cons.mp h
    rw [lookup_cons_ite]
    rcases List.mem_cons.mp hmem with heq | hmem
    · obtain ⟨rfl, rfl⟩ := Prod.mk.inj heq
      exact if_pos rfl
    · have hne : channel ≠ c := Nat.ne_of_gt (hfirst _ hmem)
      rw [if_neg hne]
      exact ih hlater hmem

/-- To go through sorted routes is to look up one channel after the other. -/
theorem flatMap_lookup {β : Type} (f : MidiRoute → List β) {routes : List (Nat × MidiRoute)}
    (h : routes.Pairwise (·.1 < ·.1)) {first count : Nat}
    (hrange : ∀ e ∈ routes, first ≤ e.1 ∧ e.1 < first + count) :
    (List.range' first count).flatMap (fun i => ((routes.lookup i).map f).getD []) =
      routes.flatMap fun e => f e.2 := by
  induction count generalizing first routes with
  | zero =>
    cases routes with
    | nil => rfl
    | cons e routes =>
      have he := hrange e List.mem_cons_self
      omega
  | succ count ih =>
    rw [List.range'_succ, List.flatMap_cons]
    cases routes with
    | nil => exact ih List.Pairwise.nil (fun e he => absurd he List.not_mem_nil)
    | cons e routes =>
      obtain ⟨c, r⟩ := e
      obtain ⟨hfirst, hlater⟩ := List.pairwise_cons.mp h
      obtain ⟨⟨hle, -⟩, hin⟩ := List.forall_mem_cons.mp hrange
      by_cases hc : c = first
      · subst hc
        have hrest : ∀ e ∈ routes, c + 1 ≤ e.1 ∧ e.1 < c + 1 + count := by
          intro e he
          have hgt : c < e.1 := hfirst e he
          have hlt := (hin e he).2
          omega
        rw [List.flatMap_cons, ← ih hlater hrest, lookup_cons_ite, if_pos rfl]
        refine congrArg (f r ++ ·) (List.flatMap_congr fun i hi => ?_)
        have hne : i ≠ c := by
          rw [List.mem_range'_1] at hi
          omega
        rw [lookup_cons_ite, if_neg hne]
      · have hrest : ∀ e ∈ (c, r) :: routes, first + 1 ≤ e.1 ∧ e.1 < first + 1 + count := by
          intro e he
          have hge : c ≤ e.1 := by
            rcases List.mem_cons.mp he with rfl | hmem
            · exact le_rfl
            · exact (hfirst e hmem).le
          have hlt := (hrange e he).2
          dsimp only at hle
          omega
        have hnone : ((c, r) :: routes).lookup first = none := by
          refine List.lookup_eq_none_iff.mpr fun e he => bne_iff_ne.mpr ?_
          exact Nat.ne_of_lt (hrest e he).1
        rw [hnone]
        exact ih h hrest

theorem route?_allNotesOff (s : MidiSink) (channel : Nat) :
    s.allNotesOff.1.route? channel =
      (s.route? channel).map fun r => { r with held := false } := by
  obtain ⟨routes⟩ := s
  unfold route? MidiSink.allNotesOff
  induction routes with
  | nil => rfl
  | cons first routes ih =>
    obtain ⟨c, r⟩ := first
    dsimp only at ih ⊢
    rw [List.map_cons, lookup_cons_ite, lookup_cons_ite, ih]
    split_ifs <;> rfl

end MidiSink

namespace MidiTable

variable {t : MidiTable} {s : MidiSink}

theorem Represents.ending_eq (h : Represents t s) (channel : Nat) :
    t.ending channel = ((s.route? channel).map MidiSink.release).getD [] := by
  unfold ending
  rw [h.held_eq, h.binding_eq]
  unfold MidiSink.isHeld MidiSink.binding?
  cases s.route? channel with
  | none => rfl
  | some route =>
    obtain ⟨binding, held⟩ := route
    cases held <;> cases binding <;> rfl

/-- The note of an entry is ended inside the tables. -/
theorem releaseAt_eq (hlength : t.held.length = t.bindings.length) {index : Nat}
    (h : index < t.bindings.length) :
    t.releaseAt index = .ok ({ t with held := t.held.set index false }, t.ending index) := by
  have hheld : index < t.held.length := hlength ▸ h
  have hsee : t.isHeld index = t.held[index] := by
    unfold isHeld
    rw [List.getElem?_eq_getElem hheld]
    rfl
  have hbinding : t.binding? index = t.bindings[index] := by
    unfold binding?
    rw [List.getElem?_eq_getElem h]
    rfl
  unfold releaseAt ending
  rw [Checked.entry_eq_ok hheld, Checked.entry_eq_ok h, hsee, hbinding, Checked.ok_bind]
  cases hentry : t.held[index] with
  | false =>
    have hsame : t.held.set index false = t.held := by
      rw [← hentry, List.set_getElem_self]
    rw [hsame]
    rfl
  | true =>
    simp only [if_true, Checked.ok_bind, Checked.replace_eq_ok hheld]
    cases t.bindings[index] with
    | none => rfl
    | some binding => cases binding <;> rfl

/-- A walk ends the notes of its entries one after the other. -/
theorem releaseFrom_eq (ends : Nat → List MidiMessage) (index count : Nat)
    (hlength : t.held.length = t.bindings.length) (hrange : index + count ≤ t.bindings.length)
    (hends : ∀ i, index ≤ i → t.ending i = ends i) :
    ∃ held, releaseFrom index count t =
        .ok ({ t with held }, (List.range' index count).flatMap ends) ∧
      held.length = t.bindings.length ∧
      ∀ i, held[i]?.getD false = if index ≤ i ∧ i < index + count then false else t.isHeld i := by
  induction count generalizing index t with
  | zero =>
    refine ⟨t.held, rfl, hlength, fun i => ?_⟩
    rw [if_neg (by omega)]
    rfl
  | succ count ih =>
    have hin : index < t.held.length := by omega
    have hfirst := releaseAt_eq hlength (show index < t.bindings.length by omega)
    have hset (i : Nat) : (t.held.set index false)[i]?.getD false =
        if i = index then false else t.isHeld i := by
      rw [getElem?_set_of_lt hin]
      split_ifs <;> rfl
    -- the entries that are still to come end as before
    have hlater : ∀ i, index + 1 ≤ i →
        ({ t with held := t.held.set index false } : MidiTable).ending i = ends i := by
      intro i hi
      have hne : i ≠ index := by omega
      rw [← hends i (by omega)]
      unfold ending isHeld
      rw [hset, if_neg hne]
      rfl
    obtain ⟨held, hwalk, hlength', hheld⟩ :=
      ih (t := { t with held := t.held.set index false }) (index + 1)
        (by rw [List.length_set, hlength]) (by dsimp only; omega) hlater
    refine ⟨held, ?_, hlength', fun i => ?_⟩
    · rw [releaseFrom, hfirst, Checked.ok_bind, List.range'_succ, List.flatMap_cons,
        ← hends index le_rfl]
      simp only [hwalk, Checked.ok_bind]
      rfl
    · rw [hheld, isHeld, hset]
      split_ifs <;> first | rfl | omega

/-- Ending every note that sounds stays inside the tables, with the messages of the sink. -/
theorem Represents.allNotesOff (h : Represents t s) (hs : s.Sorted) :
    ∃ t', t.allNotesOff = .ok (t', s.allNotesOff.2) ∧ Represents t' s.allNotesOff.1 := by
  have hrange : ∀ e ∈ s.routes, 0 ≤ e.1 ∧ e.1 < 0 + t.bindings.length := by
    intro e he
    have hbinding := h.binding_eq e.1
    rw [MidiSink.binding?, hs.route?_of_mem he, Option.map_some] at hbinding
    have hlt := h.lt_length hbinding
    rw [h.length_eq] at hlt
    omega
  obtain ⟨held, hwalk, hlength, hheld⟩ :=
    releaseFrom_eq (fun i => ((s.route? i).map MidiSink.release).getD []) 0 t.bindings.length
      h.length_eq (by omega) (fun i _ => h.ending_eq i)
  refine ⟨{ t with held }, ?_, hlength, fun c => ?_, fun c => ?_⟩
  · unfold MidiTable.allNotesOff
    rw [hwalk]
    exact congrArg (fun messages => Except.ok (_, messages))
      (MidiSink.flatMap_lookup MidiSink.release hs hrange)
  · refine (h.binding_eq c).trans ?_
    unfold MidiSink.binding?
    rw [MidiSink.route?_allNotesOff, Option.map_map]
    rfl
  · have hnone : s.allNotesOff.1.isHeld c = false := by
      unfold MidiSink.isHeld
      rw [MidiSink.route?_allNotesOff]
      cases s.route? c <;> rfl
    rw [hnone, isHeld, hheld]
    split_ifs with hc
    · rfl
    · rw [isHeld, List.getElem?_eq_none (by rw [h.length_eq]; omega)]
      rfl

end MidiTable

end SensorEvents
