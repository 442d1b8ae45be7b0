import SensorEvents.Proofs.Trigger.Evaluation

/-!
# Calls to a trigger

A trigger is evaluated, set and reset in any order and at any times. `Trigger.run` carries the calls
out and logs every transition between two stages that an evaluation applies. A setter that is
refused, or that the kind of the trigger does not have, leaves the trigger as it is.
-/
namespace SensorEvents

/-- Where a trigger is in its cycle. -/
inductive Stage where
  | phase (phase : VelocityPhase)
  | gate (on : Bool)
  deriving DecidableEq

/-- A transition that was applied. -/
structure Passage where
  before : Stage
  after : Stage
  time : Nat
  /-- The debounce interval that was set. -/
  interval : Nat

/-- An entry of a log. -/
inductive LogEntry where
  | applied (passage : Passage)
  | reset

/-- A setting of a trigger that is at work. -/
inductive TriggerSetting where
  | thresholds (minNote trigger : Nat)
  | threshold (threshold hysteresis : Nat)
  | inputRange (input : InputRange)
  | velocityBounds (minPhysical maxPhysical : Float32)
  | releaseVelocity (releaseVelocity : Bool)
  | debounce (interval : Nat)

/-- The setting fits the words it is kept in. -/
def TriggerSetting.Fits : TriggerSetting → Prop
  | inputRange input => input.Fits
  | _ => True

/-- What a trigger is told. -/
inductive TriggerCall where
  | evaluate (value now : Nat)
  | set (setting : TriggerSetting)
  | reset

def TriggerCall.Fits : TriggerCall → Prop
  | set setting => setting.Fits
  | _ => True

/-- The debounce interval of settings; a continuous trigger has none. -/
def TriggerConfig.debounce : TriggerConfig → Nat
  | velocity c => c.debounce
  | threshold c => c.debounce
  | pressure c => c.debounce
  | continuous _ => 0

/-- The transitions of `settle`. -/
def VelocityTrigger.passages (value now : Nat) : Nat → VelocityTrigger → List Passage
  | 0, _ => []
  | fuel + 1, t =>
    match t.step? value now with
    | .ok (some (t', _)) =>
      { before := .phase t.phase, after := .phase t'.phase, time := now,
        interval := t.config.debounce } :: passages value now fuel t'
    | _ => []

/-- The transition of a gate, if it has turned. -/
def Passage.turn (before after : Bool) (time interval : Nat) : List Passage :=
  if after = before then [] else [{ before := .gate before, after := .gate after, time, interval }]

namespace Trigger

def stage : Trigger → Stage
  | velocity t => .phase t.phase
  | threshold t => .gate t.on
  | pressure t => .gate t.on
  | continuous _ => .gate false

/-- The gate that spaces the transitions; a continuous trigger makes none. -/
def gate : Trigger → Debounce
  | velocity t => t.gate
  | threshold t => t.gate
  | pressure t => t.gate
  | continuous _ => { interval := 0 }

/-- Whether a value asks for a transition. -/
def asks (t : Trigger) (value now : Nat) : Checked Bool :=
  match t with
  | velocity t => do
    let value ← t.config.input.apply value
    return (t.next? value now).isSome
  | threshold t => do
    let value ← t.config.input.apply value
    let on ← t.wantsOn value
    return on ≠ t.on
  | pressure t => do
    let value ← t.config.input.apply value
    return decide (value ≥ t.config.minNote) ≠ t.on
  | continuous _ => .ok false

/-- The transitions that an evaluation applies. -/
def passages (t : Trigger) (value now : Nat) : Checked (List Passage) :=
  match t with
  | velocity t => do
    let value ← t.config.input.apply value
    return t.passages value now VelocityTrigger.cascade
  | threshold t => do
    let (last, _) ← t.evaluate value now
    return Passage.turn t.on last.on now t.config.debounce
  | pressure t => do
    let (last, _) ← t.evaluate value now
    return Passage.turn t.on last.on now t.config.debounce
  | continuous _ => .ok []

/-- Change a setting. -/
def change (t : Trigger) (setting : TriggerSetting) : Accepted Trigger :=
  match t, setting with
  | velocity t, .thresholds minNote trigger => velocity <$> t.setThresholds minNote trigger
  | velocity t, .inputRange input => velocity <$> t.setInputRange input
  | velocity t, .velocityBounds low high => velocity <$> t.setVelocityBounds low high
  | velocity t, .releaseVelocity timed => .ok (velocity (t.setReleaseVelocity timed))
  | velocity t, .debounce interval => .ok (velocity (t.setDebounce interval))
  | threshold t, .threshold value band => threshold <$> t.setThreshold value band
  | threshold t, .debounce interval => .ok (threshold (t.setDebounce interval))
  | pressure t, .thresholds minNote trigger => pressure <$> t.setThresholds minNote trigger
  | pressure t, .debounce interval => .ok (pressure (t.setDebounce interval))
  | t, _ => .ok t

/-- Carry out a call; the log of it comes with the trigger. -/
def call (t : Trigger) : TriggerCall → Checked (Trigger × List LogEntry)
  | .evaluate value now => do
    let (last, _) ← t.evaluate value now
    let passages ← t.passages value now
    return (last, passages.map .applied)
  | .set setting =>
    match t.change setting with
    | .ok t => .ok (t, [])
    | .error _ => .ok (t, [])
  | .reset => .ok (t.reset, [.reset])

/-- Carry out calls one after the other. -/
def run (t : Trigger) : List TriggerCall → Checked (Trigger × List LogEntry)
  | [] => .ok (t, [])
  | call :: calls => do
    let (t, entries) ← t.call call
    let (t, later) ← t.run calls
    return (t, entries ++ later)

/-- What a call comes to. -/
inductive Called (t : Trigger) : TriggerCall → Trigger → List LogEntry → Prop
  | evaluated {value now : Nat} {last : Trigger} {emitted : Emitted} {passages : List Passage}
    (heval : t.evaluate value now = .ok (last, emitted))
    (hpassages : t.passages value now = .ok passages) :
    Called t (.evaluate value now) last (passages.map .applied)
  | changed {setting : TriggerSetting} {last : Trigger} (hchange : t.change setting = .ok last) :
    Called t (.set setting) last []
  | refused {setting : TriggerSetting} {e : ConfigError} (hchange : t.change setting = .error e) :
    Called t (.set setting) t []
  | reset : Called t .reset t.reset [.reset]

theorem call_eq_ok {t last : Trigger} {c : TriggerCall} {log : List LogEntry} :
    t.call c = .ok (last, log) ↔ t.Called c last log := by
  constructor
  · intro h
    cases c with
    | evaluate value now =>
      obtain ⟨answer, heval, hrest⟩ := Checked.bind_eq_ok.mp h
      obtain ⟨passages, hpassages, hlast⟩ := Checked.bind_eq_ok.mp hrest
      obtain ⟨rfl, rfl⟩ := Prod.mk.inj (Except.ok.inj hlast)
      exact .evaluated heval hpassages
    | set setting =>
      cases hchange : t.change setting with
      | ok last' =>
        simp only [call, hchange] at h
        obtain ⟨rfl, rfl⟩ := Prod.mk.inj (Except.ok.inj h)
        exact .changed hchange
      | error e =>
        simp only [call, hchange] at h
        obtain ⟨rfl, rfl⟩ := Prod.mk.inj (Except.ok.inj h)
        exact .refused hchange
    | reset =>
      obtain ⟨rfl, rfl⟩ := Prod.mk.inj (Except.ok.inj h)
      exact .reset
  · intro h
    cases h with
    | evaluated heval hpassages => simp only [call, heval, hpassages, Checked.ok_bind]; rfl
    | changed hchange => simp only [call, hchange]
    | refused hchange => simp only [call, hchange]
    | reset => rfl

theorem run_cons {t t₁ last : Trigger} {c : TriggerCall} {calls : List TriggerCall}
    {entries later : List LogEntry} (hcall : t.call c = .ok (t₁, entries))
    (hrun : t₁.run calls = .ok (last, later)) :
    t.run (c :: calls) = .ok (last, entries ++ later) := by
  simp only [run, hcall, hrun, Checked.ok_bind]
  rfl

/-- The settings were accepted, and the gate waits for the interval that is set. -/
structure Gated (t : Trigger) : Prop where
  sound : t.Sound
  interval : t.gate.interval = t.config.debounce

variable {t t' : Trigger}

theorem reset_gated (h : t.Gated) : t.reset.Gated := by
  refine ⟨⟨?_, ?_⟩, ?_⟩
  · rw [config_reset]
    exact h.sound.accepted
  · rw [config_reset]
    exact h.sound.fits
  · rw [config_reset, ← h.interval]
    cases t <;> rfl

/-- After a reset a trigger is as it was built. -/
theorem reset_eq (h : t.Gated) : t.reset = t.config.atRest := by
  have hinterval := h.interval
  cases t with
  | velocity t =>
    obtain ⟨config, phase, ⟨interval, last⟩⟩ := t
    obtain rfl : interval = config.debounce := hinterval
    rfl
  | threshold t =>
    obtain ⟨config, on, ⟨interval, last⟩⟩ := t
    obtain rfl : interval = config.debounce := hinterval
    rfl
  | pressure t =>
    obtain ⟨config, on, pressure, ⟨interval, last⟩⟩ := t
    obtain rfl : interval = config.debounce := hinterval
    rfl
  | continuous t => rfl

/-- The settings were changed; the stage and the last transition were left alone, and what was set
is in force. -/
structure Adjusted (t t' : Trigger) : Prop where
  gated : t'.Gated
  rest : t'.reset.stage = t.reset.stage
  stage : t'.stage = t.stage
  last : t'.gate.lastChange = t.gate.lastChange

theorem Adjusted.refl (h : t.Gated) : Adjusted t t := ⟨h, rfl, rfl, rfl⟩

theorem velocity_adjusted {t : VelocityTrigger} (h : (velocity t).Gated) {setting : TriggerSetting}
    (hf : setting.Fits) (hchange : (velocity t).change setting = .ok t') :
    Adjusted (velocity t) t' := by
  obtain ⟨⟨hv, hfits⟩, hinterval⟩ := h
  cases setting with
  | thresholds minNote trigger =>
    obtain ⟨hv', rfl⟩ := Checked.map_checked_eq_ok.mp hchange
    exact ⟨⟨⟨hv', hfits⟩, hinterval⟩, rfl, rfl, rfl⟩
  | inputRange input =>
    obtain ⟨hv', rfl⟩ := Checked.map_checked_eq_ok.mp hchange
    exact ⟨⟨⟨hv', hf⟩, hinterval⟩, rfl, rfl, rfl⟩
  | velocityBounds low high =>
    obtain ⟨hvelocity, rfl⟩ := Checked.map_checked_eq_ok.mp hchange
    obtain ⟨hinput, -, horder⟩ := VelocityConfig.validate_eq_ok.mp hv
    refine ⟨⟨⟨?_, hfits⟩, hinterval⟩, rfl, rfl, rfl⟩
    exact VelocityConfig.validate_eq_ok.mpr ⟨hinput, hvelocity, horder⟩
  | releaseVelocity timed =>
    obtain rfl := Except.ok.inj hchange
    exact ⟨⟨⟨hv, hfits⟩, hinterval⟩, rfl, rfl, rfl⟩
  | debounce interval =>
    obtain rfl := Except.ok.inj hchange
    exact ⟨⟨⟨hv, hfits⟩, rfl⟩, rfl, rfl, rfl⟩
  | threshold _ _ =>
    obtain rfl := Except.ok.inj hchange
    exact .refl ⟨⟨hv, hfits⟩, hinterval⟩

theorem threshold_adjusted {t : ThresholdTrigger} (h : (threshold t).Gated)
    {setting : TriggerSetting} (hchange : (threshold t).change setting = .ok t') :
    Adjusted (threshold t) t' := by
  obtain ⟨⟨hv, hfits⟩, hinterval⟩ := h
  cases setting with
  | threshold value band =>
    obtain ⟨hv', rfl⟩ := Checked.map_checked_eq_ok.mp hchange
    exact ⟨⟨⟨hv', hfits⟩, hinterval⟩, rfl, rfl, rfl⟩
  | debounce interval =>
    obtain rfl := Except.ok.inj hchange
    exact ⟨⟨⟨hv, hfits⟩, rfl⟩, rfl, rfl, rfl⟩
  | _ =>
    obtain rfl := Except.ok.inj hchange
    exact .refl ⟨⟨hv, hfits⟩, hinterval⟩

theorem pressure_adjusted {t : PressureTrigger} (h : (pressure t).Gated)
    {setting : TriggerSetting} (hchange : (pressure t).change setting = .ok t') :
    Adjusted (pressure t) t' := by
  obtain ⟨⟨hv, hfits⟩, hinterval⟩ := h
  cases setting with
  | thresholds minNote trigger =>
    obtain ⟨hv', rfl⟩ := Checked.map_checked_eq_ok.mp hchange
    exact ⟨⟨⟨hv', hfits⟩, hinterval⟩, rfl, rfl, rfl⟩
  | debounce interval =>
    obtain rfl := Except.ok.inj hchange
    exact ⟨⟨⟨hv, hfits⟩, rfl⟩, rfl, rfl, rfl⟩
  | _ =>
    obtain rfl := Except.ok.inj hchange
    exact .refl ⟨⟨hv, hfits⟩, hinterval⟩

theorem change_adjusted (h : t.Gated) {setting : TriggerSetting} (hf : setting.Fits)
    (hchange : t.change setting = .ok t') : Adjusted t t' := by
  cases t with
  | velocity t => exact velocity_adjusted h hf hchange
  | threshold t => exact threshold_adjusted h hchange
  | pressure t => exact pressure_adjusted h hchange
  | continuous t =>
    obtain rfl : continuous t = t' := by cases setting <;> exact Except.ok.inj hchange
    exact .refl h

end Trigger

end SensorEvents
