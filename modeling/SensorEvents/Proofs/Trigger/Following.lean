import Mathlib
import SensorEvents.Trigger.Event

/-!
# Events of a gate

The ons and offs among events alternate when each on comes while the gate is off and each off while
it is on. `gateAfter?` follows a gate through events and has no answer when one of them does not
fit. `Reported` is what an evaluation owes its receiver: events that lead from one position of the
gate to the other, each delivered as it was meant.
-/
namespace SensorEvents

/-- The gate after an event of a kind, if the event fits the gate. -/
def EventKind.turn? : EventKind → Bool → Option Bool
  | .on, false => some true
  | .off, true => some false
  | .update, gate => some gate
  | _, _ => none

/-- The gate after events, if each of them fits. -/
def gateAfter? (gate : Bool) : List Event → Option Bool
  | [] => some gate
  | e :: events => (e.kind.turn? gate).bind fun gate => gateAfter? gate events

@[simp] theorem gateAfter?_nil (gate : Bool) : gateAfter? gate [] = some gate := rfl

theorem gateAfter?_append (gate : Bool) (es later : List Event) :
    gateAfter? gate (es ++ later) = (gateAfter? gate es).bind fun gate => gateAfter? gate later := by
  induction es generalizing gate with
  | nil => rfl
  | cons e es ih => simp [gateAfter?, ih, Option.bind_assoc]

/-- The ons and offs among events. -/
def switches (events : List Event) : List EventKind :=
  (events.map Event.kind).filter (· ≠ .update)

/-- An event that fits a gate is an update, or turns it. -/
theorem EventKind.turn?_cases {kind : EventKind} {gate next : Bool}
    (h : kind.turn? gate = some next) :
    (kind = .update ∧ next = gate) ∨ (kind = (if gate then .off else .on) ∧ next = !gate) := by
  cases kind <;> cases gate <;> simp_all [turn?]

/-- Ons and offs that fit a gate take turns, an on first when the gate is off. -/
theorem switches_alternate {gate after : Bool} {events : List Event}
    (h : gateAfter? gate events = some after) {j : Nat} {kind : EventKind}
    (hj : (switches events)[j]? = some kind) :
    kind = if gate = (j % 2 == 1) then .on else .off := by
  induction events generalizing gate j with
  | nil => exact absurd hj (by simp [switches])
  | cons e events ih =>
    unfold gateAfter? at h
    obtain ⟨next, hturn, hlater⟩ := Option.bind_eq_some_iff.mp h
    rcases EventKind.turn?_cases hturn with ⟨hkind, rfl⟩ | ⟨hkind, rfl⟩
    · have hskip : switches (e :: events) = switches events := by simp [switches, hkind]
      rw [hskip] at hj
      exact ih hlater hj
    · have hfirst : switches (e :: events) = e.kind :: switches events := by
        cases gate <;> simp [switches, hkind]
      rw [hfirst] at hj
      cases j with
      | zero =>
        rw [← Option.some.inj hj, hkind]
        cases gate <;> rfl
      | succ j =>
        rw [ih hlater hj]
        rcases Nat.mod_two_eq_zero_or_one j with hm | hm <;> cases gate <;>
          simp [hm, Nat.add_mod]

/-- A gate that is found on, and was off, was turned on. -/
theorem exists_on_of_gateAfter? {events : List Event} (h : gateAfter? false events = some true) :
    ∃ e ∈ events, e.kind = .on := by
  induction events with
  | nil => exact Bool.noConfusion (Option.some.inj h)
  | cons e events ih =>
    unfold gateAfter? at h
    obtain ⟨next, hturn, hlater⟩ := Option.bind_eq_some_iff.mp h
    rcases EventKind.turn?_cases hturn with ⟨-, rfl⟩ | ⟨hon, -⟩
    · obtain ⟨e', he', hon⟩ := ih hlater
      exact ⟨e', List.mem_cons_of_mem e he', hon⟩
    · exact ⟨e, List.mem_cons_self, hon⟩

/-- The amount of an event is its intensity. -/
def Event.Lossless (e : Event) : Prop := e.intensity = e.amount

theorem Event.lossless_of_lt {e : Event} (h : e.amount < intensitySize) : e.Lossless :=
  Nat.mod_eq_of_lt h

/-- Events lead from one position of a gate to another, and none of them is cut. -/
structure Reported (before after : Bool) (events : List Event) : Prop where
  follows : gateAfter? before events = some after
  lossless : ∀ e ∈ events, e.Lossless

namespace Reported

theorem nil (gate : Bool) : Reported gate gate [] := ⟨rfl, nofun⟩

theorem append {a b c : Bool} {es later : List Event} (h : Reported a b es)
    (h' : Reported b c later) : Reported a c (es ++ later) := by
  constructor
  · rw [gateAfter?_append, h.follows]
    exact h'.follows
  · intro e he
    rcases List.mem_append.mp he with he | he
    · exact h.lossless e he
    · exact h'.lossless e he

theorem singleton {a b : Bool} {e : Event} (hturn : e.kind.turn? a = some b)
    (hlt : e.amount < Event.intensitySize) : Reported a b [e] := by
  constructor
  · simp [gateAfter?, hturn]
  · intro e' he
    rw [List.mem_singleton.mp he]
    exact Event.lossless_of_lt hlt

end Reported

namespace Emitted

@[simp] theorem events_none : Emitted.none.events = [] := rfl

theorem eq_none_iff {e : Emitted} : e = .none ↔ e.events = [] := by
  constructor
  · rintro rfl
    rfl
  · intro h
    obtain ⟨events, hlength⟩ := e
    obtain rfl : events = [] := h
    rfl

@[simp] theorem events_one (e : Event) : (Emitted.one e).events = [e] := rfl

end Emitted

end SensorEvents
