import SensorEvents.Proofs.Trigger.Settling
import SensorEvents.Proofs.Trigger.Timing

/-!
# Evaluations come to an end

The loop of an evaluation has no bound of its own: it goes on while a transition is asked for and the
gate is ready. A value leaves room for two transitions at most, since the thresholds are in order, and
a gate with an interval is not ready again after the first. So the loop ends by itself, with one
result however much it is given to go on, and only its last transition can report something.
-/
namespace SensorEvents

theorem Emitted.eq_of_events {a b : Emitted} (h : a.events = b.events) : a = b := by
  obtain ⟨events, hlength⟩ := a
  obtain rfl : events = b.events := h
  rfl

/-- A gate that was marked is not ready again at once, unless it has no interval. -/
theorem Debounce.ready_mark {d : Debounce} (hinterval : 0 < d.interval) (now : Nat) :
    (d.mark now).ready now = false := by
  simp only [ready, mark, Nat.sub_self, ge_iff_le, decide_eq_false_iff_not]
  omega

namespace VelocityTrigger

variable {t last : VelocityTrigger} {value now : Nat} {es : List Event}

namespace Cascade

/-- The loop has one result. -/
theorem unique (h : Cascade value now t es last) {es' : List Event} {last' : VelocityTrigger}
    (h' : Cascade value now t es' last') : last' = last ∧ es' = es := by
  induction h generalizing es' last' with
  | rest hrest =>
    cases h' with
    | rest _ => exact ⟨rfl, rfl⟩
    | move hstep _ => exact nomatch Checked.ok_unique hrest.step?_eq hstep.step?_eq
  | move hstep _ ih =>
    cases h' with
    | rest hrest => exact nomatch Checked.ok_unique hrest.step?_eq hstep.step?_eq
    | move hstep' hlater' =>
      have hsame := Option.some.inj (Checked.ok_unique hstep'.step?_eq hstep.step?_eq)
      obtain ⟨hmoved, rfl⟩ := Prod.mk.inj hsame
      rw [hmoved] at hlater'
      obtain ⟨rfl, rfl⟩ := ih hlater'
      exact ⟨rfl, rfl⟩

/-- Where room for one transition is left, at most one event is reported. -/
theorem length_le_of_movesLeft (h : Cascade value now t es last) (hroom : t.movesLeft value ≤ 1) :
    es.length ≤ 1 := by
  cases h with
  | rest _ => exact Nat.zero_le 1
  | @move _ _ next e es hstep hlater =>
    cases hstep with
    | move _ _ hmove =>
      have hless := hmove.movesLeft_lt
      obtain ⟨-, rfl⟩ := hlater.eq_of_rests (rests_of_movesLeft (by omega))
      rw [List.append_nil]
      exact Option.length_toList_le

theorem length_le (h : Cascade value now t es last) : es.length ≤ 1 := by
  cases h with
  | rest _ => exact Nat.zero_le 1
  | @move _ _ next e es hstep hlater =>
    have hall := Cascade.move hstep hlater
    cases hstep with
    | move _ _ hmove =>
      have hless := hmove.movesLeft_lt
      have hmost := t.movesLeft_le value
      cases e with
      | none => exact hlater.length_le_of_movesLeft (by omega)
      | some e =>
        -- an event is reported on the way out of a phase that is timed
        refine hall.length_le_of_movesLeft ?_
        cases hmove with
        | on hphase _ _ => simp only [movesLeft, hphase, le_refl]
        | off hphase _ _ => simp only [movesLeft, hphase, le_refl]

end Cascade

/-- The transitions of a cascade: they lead from its first phase to its last, there are no more of
them than a value leaves room for, and of the fuel no more is used. -/
structure Traced (t : VelocityTrigger) (value now : Nat) (reports : List (Passage × Option Event))
    (es : List Event) (last : VelocityTrigger) : Prop where
  events : reports.filterMap Prod.snd = es
  stages : ∀ rest, stageAfter? rest (.phase t.phase) (logged reports) = some (.phase last.phase)
  room : reports.length ≤ t.movesLeft value
  spaced : 0 < t.gate.interval → reports.length ≤ 1
  fuel : ∀ fuel, reports.length ≤ fuel → t.reportsFrom value now fuel = reports

theorem Step.reportsFrom_eq_nil (h : t.Step value now none) (fuel : Nat) :
    t.reportsFrom value now fuel = [] := by
  cases fuel with
  | zero => rfl
  | succ fuel => rw [reportsFrom, h.step?_eq]

theorem Cascade.traced (h : Cascade value now t es last) :
    ∃ reports, Traced t value now reports es last := by
  induction h with
  | rest hrest =>
    exact ⟨[], rfl, fun _ => rfl, Nat.zero_le _, fun _ => Nat.zero_le 1,
      fun fuel _ => hrest.reportsFrom_eq_nil fuel⟩
  | @move t last next e es hstep hlater ih =>
    have hstep' := hstep.step?_eq
    obtain ⟨reports, htraced⟩ := ih
    cases hstep with
    | move _ _ hmove =>
      let passage : Passage :=
        { before := .phase t.phase, after := .phase next, time := now,
          interval := t.config.debounce }
      refine ⟨(passage, e) :: reports, ?_, fun rest => ?_, ?_, fun hinterval => ?_,
        fun fuel hfuel => ?_⟩
      · rw [← htraced.events]
        cases e <;> rfl
      · have hnext : (Stage.phase next) ≠ .phase t.phase := fun hsame =>
          hmove.phase_ne (Stage.phase.inj hsame)
        exact (if_pos ⟨rfl, hnext⟩).trans (htraced.stages rest)
      · have hroom := htraced.room
        have hless := hmove.movesLeft_lt
        rw [List.length_cons]
        omega
      · have hrefused : (t.moved next now).Step value now none :=
          .rest (.inr (Debounce.ready_mark hinterval now))
        have hnone : reports = [] :=
          (htraced.fuel _ le_rfl).symm.trans (hrefused.reportsFrom_eq_nil _)
        rw [hnone, List.length_singleton]
      · cases fuel with
        | zero => exact absurd hfuel (Nat.not_succ_le_zero _)
        | succ fuel =>
          rw [reportsFrom, hstep']
          exact congrArg _ (htraced.fuel fuel (Nat.le_of_succ_le_succ hfuel))

/-- Fuel for more transitions than a value leaves room for changes nothing. -/
theorem Cascade.settle_eq {emitted : Emitted} (h : Cascade value now t emitted.events last)
    (hv : t.config.validate = .ok ()) {fuel : Nat} (hfuel : 2 < fuel) :
    settle value now fuel t .none = .ok (last, emitted) := by
  have hmost := t.movesLeft_le value
  have hroom : Emitted.none.size + t.movesLeft value ≤ 2 := by simpa [Emitted.size] using hmost
  obtain ⟨last', emitted', es, hsettle, hcascade, hevents⟩ :=
    VelocityTrigger.settle_eq value now fuel t .none hv (by omega) hroom
  obtain ⟨rfl, rfl⟩ := h.unique hcascade
  rw [hsettle, Emitted.eq_of_events hevents]

/-- An evaluation at a value that asks for nothing does nothing. -/
theorem Rests.evaluate_eq {v : Nat} (h : t.Rests v) (hv : t.config.validate = .ok ())
    (hf : t.config.input.Fits) (happly : t.config.input.apply value = .ok v) (now : Nat) :
    t.evaluate value now = .ok (t, .none) := by
  obtain ⟨v', last, emitted, happly', -, heval, hcascade⟩ :=
    VelocityTrigger.evaluate_eq hv hf value now
  obtain rfl := Checked.ok_unique happly happly'
  obtain ⟨rfl, hnone⟩ := hcascade.eq_of_rests h
  rw [heval, Emitted.eq_none_iff.mpr hnone]

/-- Whatever the phase and the clock of a trigger with accepted settings: the loop of an evaluation
ends by itself, with the same result for every fuel above two. It applies at most two transitions,
with an interval at most one; it reports at most one event, and none is dropped. Without an interval
the value asks for nothing where it ends, at whatever time, so that evaluating it again does
nothing. -/
theorem evaluate_ends (hv : t.config.validate = .ok ()) (hf : t.config.input.Fits)
    (value now : Nat) :
    ∃ v last emitted reports, t.config.input.apply value = .ok v ∧
      t.evaluate value now = .ok (last, emitted) ∧ t.reports value now = .ok reports ∧
      (∀ fuel, 2 < fuel → settle v now fuel t .none = .ok (last, emitted) ∧
        t.reportsFrom v now fuel = reports) ∧
      last.step? v now = .ok none ∧
      (∀ rest, stageAfter? rest (.phase t.phase) (logged reports) = some (.phase last.phase)) ∧
      reports.length ≤ 2 ∧ (0 < t.gate.interval → reports.length ≤ 1) ∧
      emitted.events = reports.filterMap Prod.snd ∧ emitted.events.length ≤ 1 ∧
      (t.gate.interval = 0 → ∀ later, last.next? v later = none ∧
        last.evaluate value later = .ok (last, .none)) := by
  obtain ⟨v, last, emitted, happly, -, heval, hcascade⟩ := evaluate_eq hv hf value now
  obtain ⟨reports, htraced⟩ := hcascade.traced
  have hmost := htraced.room.trans (t.movesLeft_le v)
  refine ⟨v, last, emitted, reports, happly, heval, ?_,
    fun fuel hfuel => ⟨hcascade.settle_eq hv hfuel, htraced.fuel fuel (hmost.trans hfuel.le)⟩,
    hcascade.settled.step?_eq, htraced.stages, hmost, htraced.spaced, htraced.events.symm,
    hcascade.length_le, fun hinterval later => ?_⟩
  · simp only [VelocityTrigger.reports, happly, Checked.ok_bind]
    rw [htraced.fuel cascade (hmost.trans (by decide))]
    rfl
  · have hrests := hcascade.rests_of_unspaced hinterval
    have hconfig := hcascade.config_eq
    exact ⟨next?_eq_none_iff.mpr hrests,
      hrests.evaluate_eq (hconfig ▸ hv) (hconfig ▸ hf) (hconfig ▸ happly) later⟩

end VelocityTrigger

/-- A pad that is struck without an interval, and held. -/
def heldPad : VelocityTrigger where
  config :=
    { minNote := 40, trigger := 60, velocity := { minPhysical := 0.5, maxPhysical := 2 }
      debounce := 0 }
  phase := .active
  gate := { interval := 0, lastChange := some 50 }

/-- Let go at once, the pad releases and comes to rest in one evaluation, with one off; a time before
that of the strike makes no difference. -/
theorem heldPad_ends :
    heldPad.config.validate = .ok () ∧ heldPad.config.input.Fits ∧
      ∃ v last emitted reports, heldPad.config.input.apply 10 = .ok v ∧
        heldPad.evaluate 10 20 = .ok (last, emitted) ∧ heldPad.reports 10 20 = .ok reports ∧
        reports.length = 2 ∧ emitted.events = [.off 0] ∧ last.phase = .idle ∧
        heldPad.gate.interval = 0 ∧ last.evaluate 10 70 = .ok (last, .none) := by
  have hv : heldPad.config.validate = .ok () := Checked.eq_ok_of_isOk (by decide +kernel)
  have hf : heldPad.config.input.Fits := by decide
  obtain ⟨v, last, emitted, reports, happly, heval, hreports, -, -, -, -, -, -, -, hagain⟩ :=
    VelocityTrigger.evaluate_ends hv hf 10 20
  have hrest : heldPad.evaluate 10 20 =
      .ok ({ heldPad with phase := .idle, gate := ⟨0, some 20⟩ }, .one (.off 0)) := rfl
  have htwo : heldPad.reports 10 20 = .ok
      [(⟨.phase .active, .phase (.releasing 20), 20, 0⟩, none),
        (⟨.phase (.releasing 20), .phase .idle, 20, 0⟩, some (.off 0))] := rfl
  obtain ⟨rfl, rfl⟩ := Checked.ok_unique_pair heval hrest
  obtain rfl := Checked.ok_unique hreports htwo
  exact ⟨hv, hf, v, _, _, _, happly, heval, hreports, rfl, rfl, rfl, rfl, (hagain rfl 70).2⟩

end SensorEvents
