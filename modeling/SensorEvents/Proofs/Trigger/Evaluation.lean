import SensorEvents.Proofs.Trigger.Velocity
import SensorEvents.Trigger.Trigger

/-!
# Evaluations of a trigger

A trigger whose settings were accepted evaluates every value at every time, keeps its settings, and
reports events that fit its gate. For each kind one theorem says what an evaluation does;
`Trigger.evaluate_eq_ok` is what they have in common.
-/
namespace SensorEvents

namespace ThresholdTrigger

variable {t : ThresholdTrigger}

/-- Whether the gate should be on, without a look at the width of the on-point. -/
def wants (t : ThresholdTrigger) (value : Nat) : Bool :=
  if t.on then value ≥ t.config.threshold
  else value > t.config.threshold + t.config.hysteresis

/-- The on-point of accepted settings fits its width. -/
theorem wantsOn_eq_ok (hv : t.config.validate = .ok ()) (value : Nat) :
    t.wantsOn value = .ok (t.wants value) := by
  obtain ⟨hinput, hbelow, -⟩ := ThresholdConfig.validate_eq_ok.mp hv
  obtain ⟨-, hwidest, -⟩ := InputRange.validate_eq_ok.mp hinput
  have hfits : t.config.threshold + t.config.hysteresis ≤ Checked.max32 := by
    simp only [Checked.saturatingAdd32, Checked.max32, InputRange.widest] at *
    omega
  unfold wantsOn wants
  cases t.on with
  | true => rfl
  | false =>
    rw [Checked.add32_eq_ok hfits]
    rfl

/-- The trigger after its gate has turned. -/
def turned (t : ThresholdTrigger) (now : Nat) : ThresholdTrigger :=
  { t with on := !t.on, gate := t.gate.mark now }

/-- The event of a gate that turns. -/
def turnEvent (t : ThresholdTrigger) : Event :=
  if t.on then .off 0 else .on t.config.onVelocity

/-- An evaluation turns the gate if the value asks for it and the debounce allows it. -/
theorem evaluate_eq (hv : t.config.validate = .ok ()) (hf : t.config.input.Fits)
    (value now : Nat) :
    ∃ v, t.config.input.apply value = .ok v ∧ t.evaluate value now = .ok
      (if t.wants v ≠ t.on ∧ t.gate.ready now = true then (t.turned now, .one t.turnEvent)
        else (t, .none)) := by
  obtain ⟨hinput, -⟩ := ThresholdConfig.validate_eq_ok.mp hv
  obtain ⟨v, happly, -⟩ := InputRange.apply_eq_ok hinput hf value
  refine ⟨v, happly, ?_⟩
  unfold evaluate turned turnEvent
  rw [happly, Checked.ok_bind, wantsOn_eq_ok hv, Checked.ok_bind]
  cases t.wants v <;> cases t.on <;> cases t.gate.ready now <;> rfl

theorem reported (hv : t.config.validate = .ok ()) (now : Nat) :
    Reported t.on (t.turned now).on [t.turnEvent] := by
  obtain ⟨-, -, hvelocity⟩ := ThresholdConfig.validate_eq_ok.mp hv
  unfold turned turnEvent
  cases t.on with
  | false => exact .singleton rfl (lt_of_le_of_lt hvelocity (by decide))
  | true => exact .singleton rfl (show 0 < Event.intensitySize by decide)

end ThresholdTrigger

namespace PressureTrigger

variable {t : PressureTrigger}

/-- Whether the note should be on. -/
def wants (t : PressureTrigger) (value : Nat) : Bool := value ≥ t.config.minNote

/-- The trigger after its note has turned. -/
def turned (t : PressureTrigger) (now : Nat) : PressureTrigger :=
  { t with
    on := !t.on
    lastPressure := if t.on then none else t.lastPressure
    gate := t.gate.mark now }

/-- The event of a note that turns. -/
def turnEvent (t : PressureTrigger) (value : Nat) : Event :=
  if t.on then .off 0 else .on (t.config.onVelocity.getD (min value 127))

theorem changeNote?_eq (t : PressureTrigger) (value now : Nat) :
    t.changeNote? value now =
      if t.wants value = t.on then some (t, .none)
      else if t.gate.ready now then some (t.turned now, .one (t.turnEvent value))
      else none := by
  obtain ⟨config, on, lastPressure, gate⟩ := t
  unfold changeNote? turned turnEvent wants
  cases decide (value ≥ config.minNote) <;> cases on <;> cases gate.ready now <;> simp

/-- What becomes of the note, when a change of it is not refused. -/
inductive Turning (t : PressureTrigger) (value now : Nat) : PressureTrigger → List Event → Prop
  | stays (hwants : t.wants value = t.on) : Turning t value now t []
  | turns (hwants : t.wants value ≠ t.on) (hready : t.gate.ready now = true) :
      Turning t value now (t.turned now) [t.turnEvent value]

/-- What becomes of the pressure. -/
inductive Pressing (t : PressureTrigger) (value : Nat) : PressureTrigger → List Event → Prop
  | keeps (h : t.on = true → t.config.trigger ≤ value → t.lastPressure = some value) :
      Pressing t value t []
  | reports (hon : t.on = true) (htrigger : t.config.trigger ≤ value)
      (hnew : t.lastPressure ≠ some value) :
      Pressing t value { t with lastPressure := some value } [.update value]

theorem changePressure_eq (t : PressureTrigger) (value : Nat) (emitted : Emitted)
    (h : emitted.size < 2) :
    ∃ last emitted' es, t.changePressure value emitted = (last, emitted') ∧
      emitted'.events = emitted.events ++ es ∧ t.Pressing value last es := by
  rw [changePressure]
  split_ifs with hreports
  · simp only [ne_eq, decide_not, Bool.and_eq_true, decide_eq_true_eq, ge_iff_le, Bool.not_eq_true',
      decide_eq_false_iff_not] at hreports
    obtain ⟨⟨hon, htrigger⟩, hnew⟩ := hreports
    exact ⟨_, _, _, rfl, Emitted.events_push h _, .reports hon htrigger hnew⟩
  · refine ⟨_, _, [], rfl, (List.append_nil _).symm, .keeps fun hon htrigger => ?_⟩
    simpa [hon, htrigger] using hreports

/-- An evaluation is refused, or turns the note as the value asks and then reports the pressure. -/
theorem evaluate_parts (hv : t.config.validate = .ok ()) (hf : t.config.input.Fits)
    (value now : Nat) :
    ∃ v, t.config.input.apply value = .ok v ∧ v ≤ t.config.input.outputMax ∧
      ((t.wants v ≠ t.on ∧ t.gate.ready now = false ∧ t.evaluate value now = .ok (t, .none)) ∨
        ∃ mid last emitted first second, t.evaluate value now = .ok (last, emitted) ∧
          emitted.events = first ++ second ∧ t.Turning v now mid first ∧
          mid.Pressing v last second) := by
  obtain ⟨hinput, -⟩ := PressureConfig.validate_eq_ok.mp hv
  obtain ⟨v, happly, hle⟩ := InputRange.apply_eq_ok hinput hf value
  refine ⟨v, happly, hle, ?_⟩
  rw [evaluate, happly, Checked.ok_bind, changeNote?_eq]
  split_ifs with hwants hready
  · obtain ⟨last, emitted, second, heq, hevents, hpressing⟩ :=
      t.changePressure_eq v .none (by decide)
    exact .inr ⟨t, last, emitted, [], second, congrArg _ heq, hevents, .stays hwants, hpressing⟩
  · obtain ⟨last, emitted, second, heq, hevents, hpressing⟩ :=
      (t.turned now).changePressure_eq v (.one (t.turnEvent v)) (by simp [Emitted.size])
    exact .inr ⟨_, last, emitted, _, second, congrArg _ heq, hevents, .turns hwants hready,
      hpressing⟩
  · exact .inl ⟨hwants, Bool.eq_false_iff.mpr hready, rfl⟩

/-- What an evaluation does at a preprocessed value. -/
inductive Evaluation (t : PressureTrigger) (value now : Nat) (last : PressureTrigger)
    (es : List Event) : Prop
  /-- The change that the value asks for is refused. -/
  | refused (hwants : t.wants value ≠ t.on) (hready : t.gate.ready now = false) (hlast : last = t)
      (hes : es = [])
  /-- The note stays as it is. -/
  | stays (hwants : t.wants value = t.on) (hconfig : last.config = t.config)
      (hon : last.on = t.on) (hgate : last.gate = t.gate)
      (hes : es = [] ∨ es = [.update value])
  /-- The note turns. -/
  | turns (hwants : t.wants value ≠ t.on) (hready : t.gate.ready now = true)
      (hconfig : last.config = t.config) (hon : last.on = !t.on)
      (hgate : last.gate = t.gate.mark now)
      (hes : es = [t.turnEvent value] ∨ es = [t.turnEvent value, .update value])

/-- The pressure is a matter apart from the note. -/
theorem Pressing.evaluation {mid last : PressureTrigger} {value now : Nat}
    {first second : List Event} (h : mid.Pressing value last second)
    (hturning : t.Turning value now mid first) :
    t.Evaluation value now last (first ++ second) := by
  have hupdate : second = [] ∨ second = [.update value] := by
    cases h with
    | keeps _ => exact .inl rfl
    | reports _ _ _ => exact .inr rfl
  have hrest : last.config = mid.config ∧ last.on = mid.on ∧ last.gate = mid.gate := by
    cases h <;> exact ⟨rfl, rfl, rfl⟩
  obtain ⟨hconfig, hon, hgate⟩ := hrest
  cases hturning with
  | stays hwants => exact .stays hwants hconfig hon hgate hupdate
  | turns hwants hready =>
    exact .turns hwants hready hconfig hon hgate (hupdate.imp (congrArg _) (congrArg _))

theorem evaluate_eq (hv : t.config.validate = .ok ()) (hf : t.config.input.Fits)
    (value now : Nat) :
    ∃ v last emitted, t.config.input.apply value = .ok v ∧ v ≤ t.config.input.outputMax ∧
      t.evaluate value now = .ok (last, emitted) ∧ t.Evaluation v now last emitted.events := by
  obtain ⟨v, happly, hle, ⟨hwants, hready, heval⟩ | ⟨mid, last, emitted, first, second, heval,
    hevents, hturning, hpressing⟩⟩ := evaluate_parts hv hf value now
  · exact ⟨v, t, .none, happly, hle, heval, .refused hwants hready rfl rfl⟩
  · exact ⟨v, last, emitted, happly, hle, heval, hevents ▸ hpressing.evaluation hturning⟩

theorem Evaluation.config_eq {value now : Nat} {last : PressureTrigger} {es : List Event}
    (h : t.Evaluation value now last es) : last.config = t.config := by
  cases h with
  | refused _ _ hlast _ => rw [hlast]
  | stays _ hconfig _ _ _ => exact hconfig
  | turns _ _ hconfig _ _ _ => exact hconfig

/-- Pressure and velocity of accepted settings are small enough to be delivered. -/
theorem Evaluation.reported (hv : t.config.validate = .ok ()) {value now : Nat}
    (hle : value ≤ t.config.input.outputMax) {last : PressureTrigger} {es : List Event}
    (h : t.Evaluation value now last es) : Reported t.on last.on es := by
  obtain ⟨hinput, -, -, hvelocity⟩ := PressureConfig.validate_eq_ok.mp hv
  obtain ⟨-, hwidest, -⟩ := InputRange.validate_eq_ok.mp hinput
  have hupdate (on : Bool) : Reported on on [.update value] :=
    .singleton (by cases on <;> rfl) (lt_of_le_of_lt (hle.trans hwidest) (by decide))
  have hturn : Reported t.on (!t.on) [t.turnEvent value] := by
    unfold turnEvent
    cases t.on with
    | true => exact .singleton rfl (show 0 < Event.intensitySize by decide)
    | false =>
      refine .singleton rfl (lt_of_le_of_lt (b := 127) ?_ (by decide))
      cases hset : t.config.onVelocity with
      | none => exact Nat.min_le_right ..
      | some velocity => exact hvelocity velocity hset
  cases h with
  | refused _ _ hlast hes =>
    rw [hlast, hes]
    exact .nil _
  | stays _ _ hon _ hes =>
    rw [hon]
    rcases hes with rfl | rfl
    · exact .nil _
    · exact hupdate _
  | turns _ _ _ hon _ hes =>
    rw [hon]
    rcases hes with rfl | rfl
    · exact hturn
    · exact hturn.append (hupdate _)

end PressureTrigger

/-- A continuous trigger reports a value that is a new one. -/
theorem ContinuousTrigger.evaluate_eq {t : ContinuousTrigger} (hv : t.config.validate = .ok ())
    (hf : t.config.input.Fits) (value : Nat) :
    ∃ v, t.config.input.apply value = .ok v ∧ v ≤ t.config.input.outputMax ∧
      t.evaluate value = .ok (if t.lastSent = some v then (t, .none)
        else ({ t with lastSent := some v }, .one (.update v))) := by
  obtain ⟨v, happly, hle⟩ := InputRange.apply_eq_ok (ContinuousConfig.validate_eq_ok.mp hv) hf value
  refine ⟨v, happly, hle, ?_⟩
  unfold evaluate
  rw [happly, Checked.ok_bind]
  split_ifs <;> rfl

namespace TriggerConfig

/-- The input range of a trigger. -/
def input : TriggerConfig → InputRange
  | velocity c => c.input
  | threshold c => c.input
  | pressure c => c.input
  | continuous c => c.input

/-- The settings fit the words they are kept in. -/
def Fits (c : TriggerConfig) : Prop := c.input.Fits

instance (c : TriggerConfig) : Decidable c.Fits := inferInstanceAs (Decidable c.input.Fits)

theorem input_of_validate {c : TriggerConfig} (hv : c.validate = .ok ()) :
    c.input.validate = .ok () := by
  cases c with
  | velocity c => exact (VelocityConfig.validate_eq_ok.mp hv).1
  | threshold c => exact (ThresholdConfig.validate_eq_ok.mp hv).1
  | pressure c => exact (PressureConfig.validate_eq_ok.mp hv).1
  | continuous c => exact ContinuousConfig.validate_eq_ok.mp hv

end TriggerConfig

namespace Trigger

theorem config_reset (t : Trigger) : t.reset.config = t.config := by cases t <;> rfl

theorem isOn_reset (t : Trigger) : t.reset.isOn = false := by cases t <;> rfl

/-- The settings were accepted and fit their words. -/
structure Sound (t : Trigger) : Prop where
  accepted : t.config.validate = .ok ()
  fits : t.config.Fits

/-- An evaluation has a result, keeps the settings and reports events that fit the gate. -/
theorem evaluate_eq_ok {t : Trigger} (h : t.Sound) (value now : Nat) :
    ∃ last emitted, t.evaluate value now = .ok (last, emitted) ∧ last.config = t.config ∧
      Reported t.isOn last.isOn emitted.events := by
  obtain ⟨hv, hf⟩ := h
  cases t with
  | velocity t =>
    obtain ⟨v, last, emitted, -, -, heval, hcascade⟩ := VelocityTrigger.evaluate_eq hv hf value now
    refine ⟨velocity last, emitted, ?_, ?_, hcascade.reported hv⟩
    · simp only [evaluate, heval, Checked.ok_bind]
      rfl
    · exact congrArg TriggerConfig.velocity hcascade.config_eq
  | threshold t =>
    obtain ⟨v, -, heval⟩ := ThresholdTrigger.evaluate_eq hv hf value now
    simp only [evaluate, heval, Checked.ok_bind]
    split_ifs
    · exact ⟨_, _, rfl, rfl, ThresholdTrigger.reported hv now⟩
    · exact ⟨_, _, rfl, rfl, .nil _⟩
  | pressure t =>
    obtain ⟨v, last, emitted, -, hle, heval, hlast⟩ := PressureTrigger.evaluate_eq hv hf value now
    refine ⟨pressure last, emitted, ?_, ?_, hlast.reported hv hle⟩
    · simp only [evaluate, heval, Checked.ok_bind]
      rfl
    · exact congrArg TriggerConfig.pressure hlast.config_eq
  | continuous t =>
    obtain ⟨v, -, hle, heval⟩ := ContinuousTrigger.evaluate_eq hv hf value
    obtain ⟨-, hwidest, -⟩ := InputRange.validate_eq_ok.mp (ContinuousConfig.validate_eq_ok.mp hv)
    simp only [evaluate, heval, Checked.ok_bind]
    split_ifs
    · exact ⟨_, _, rfl, rfl, .nil _⟩
    · exact ⟨_, _, rfl, rfl, .singleton rfl (lt_of_le_of_lt (hle.trans hwidest) (by decide))⟩

/-- What an evaluation reports leads its gate to where it ends. -/
theorem evaluate_reported {t last : Trigger} (h : t.Sound) {value now : Nat} {emitted : Emitted}
    (heval : t.evaluate value now = .ok (last, emitted)) :
    last.config = t.config ∧ Reported t.isOn last.isOn emitted.events := by
  obtain ⟨last', emitted', heval', hconfig, hreported⟩ := evaluate_eq_ok h value now
  obtain ⟨rfl, rfl⟩ := Checked.ok_unique_pair heval heval'
  exact ⟨hconfig, hreported⟩

section Kinds

variable {value now : Nat} {emitted : Emitted}

theorem evaluate_of_velocity {t last : VelocityTrigger}
    (h : t.evaluate value now = .ok (last, emitted)) :
    (velocity t).evaluate value now = .ok (velocity last, emitted) := by
  simp only [evaluate, h, Checked.ok_bind]
  rfl

theorem evaluate_of_threshold {t last : ThresholdTrigger}
    (h : t.evaluate value now = .ok (last, emitted)) :
    (threshold t).evaluate value now = .ok (threshold last, emitted) := by
  simp only [evaluate, h, Checked.ok_bind]
  rfl

theorem evaluate_of_pressure {t last : PressureTrigger}
    (h : t.evaluate value now = .ok (last, emitted)) :
    (pressure t).evaluate value now = .ok (pressure last, emitted) := by
  simp only [evaluate, h, Checked.ok_bind]
  rfl

end Kinds

end Trigger

/-- The trigger of settings before its first evaluation. -/
def TriggerConfig.atRest : TriggerConfig → Trigger
  | velocity c => .velocity { config := c, gate := { interval := c.debounce } }
  | threshold c => .threshold { config := c, gate := { interval := c.debounce } }
  | pressure c => .pressure { config := c, gate := { interval := c.debounce } }
  | continuous c => .continuous { config := c }

theorem TriggerConfig.config_atRest (c : TriggerConfig) : c.atRest.config = c := by cases c <;> rfl

theorem TriggerConfig.isOn_atRest (c : TriggerConfig) : c.atRest.isOn = false := by cases c <;> rfl

/-- A trigger is built from accepted settings. -/
theorem TriggerConfig.build_eq_ok {c : TriggerConfig} (h : c.validate = .ok ()) :
    c.build = .ok c.atRest := by
  cases c with
  | velocity c =>
    have hv : c.validate = .ok () := h
    simp only [build, VelocityTrigger.build, hv, Checked.ok_bind, Checked.pure_eq_ok, atRest,
      Checked.map_ok]
  | threshold c =>
    have hv : c.validate = .ok () := h
    simp only [build, ThresholdTrigger.build, hv, Checked.ok_bind, Checked.pure_eq_ok, atRest,
      Checked.map_ok]
  | pressure c =>
    have hv : c.validate = .ok () := h
    simp only [build, PressureTrigger.build, hv, Checked.ok_bind, Checked.pure_eq_ok, atRest,
      Checked.map_ok]
  | continuous c =>
    have hv : c.validate = .ok () := h
    simp only [build, ContinuousTrigger.build, hv, Checked.ok_bind, Checked.pure_eq_ok, atRest,
      Checked.map_ok]

end SensorEvents
