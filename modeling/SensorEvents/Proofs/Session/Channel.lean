import SensorEvents.Channel
import SensorEvents.Config.SensorConfig
import SensorEvents.Proofs.Conditioning.Faultless
import SensorEvents.Proofs.Trigger.Evaluation

/-!
# Channels in service

`Channel.Sound` is what the stages of a channel need so that a tick has a result. A channel that is
built from accepted settings starts sound and off, and every tick, start and new baseline keeps it
sound. The events of a tick fit the gate of its trigger, and there are at most two of them.
-/
namespace SensorEvents

/-- The settings of the stages were accepted, and the quantizer has a level of its input. -/
structure Channel.Sound {σ : Type} (c : Channel σ) : Prop where
  conditioner : c.conditioner.config.validate = .ok ()
  hysteresis : ∀ h ∈ c.hysteresis, h.Sound
  trigger : c.trigger.Sound

namespace Channel

variable {σ : Type} {c : Channel σ}

/-- The value for the trigger can be computed. -/
theorem quantize_eq_ok {hysteresis : Option Hysteresis} (hs : ∀ h ∈ hysteresis, h.Sound)
    (conditioned : Nat) {precision : Nat} (hprecision : precision ≤ maxPrecision) :
    ∃ value hysteresis', quantize hysteresis conditioned precision = .ok (value, hysteresis') ∧
      ∀ h ∈ hysteresis', h.Sound := by
  cases hysteresis with
  | none => exact ⟨conditioned, none, rfl, nofun⟩
  | some h =>
    obtain ⟨changed, h', hupdate, hsound, -, -⟩ := (hs h rfl).update_eq_ok conditioned
    unfold maxPrecision at hprecision
    obtain ⟨value, hvalue⟩ := BitDepth.widen_eq_ok h'.level (h'.inputBits - h'.bits)
      (show precision ≤ 64 by omega)
    refine ⟨value, some h', ?_, fun x hx => Option.some.inj hx ▸ hsound⟩
    simp only [quantize, hupdate, hsound.outputBits_eq_ok, hvalue, Checked.ok_bind]
    rfl

/-- A quantizer goes with a conditioner of its own precision. -/
theorem assemble_eq_ok (name : String) (trigger : Trigger) {conditioner : Conditioner (Feed σ)}
    {hysteresis : Option Hysteresis}
    (h : ∀ x ∈ hysteresis, x.inputBits = conditioner.precision) :
    assemble name conditioner hysteresis trigger =
      .ok { name, conditioner, hysteresis, trigger } := by
  cases hysteresis with
  | none => rfl
  | some x =>
    have hsame : x.inputBits = conditioner.precision := h x rfl
    simp only [assemble, hsame, ne_eq, not_true_eq_false, if_false]
    rfl

variable [Source σ]

/-- A tick of a sound channel has a result, and its events fit the gate. -/
theorem tick_eq_ok [Elementary] (h : c.Sound) (now : Nat) :
    ∃ c' events, c.tick now = .ok (c', events) ∧ c'.Sound ∧
      Reported c.isOn c'.isOn events ∧ events.length ≤ 2 := by
  obtain ⟨hconditioner, hhysteresis, htrigger⟩ := h
  obtain ⟨polled, conditioner, hpoll, hconfig⟩ := Conditioner.poll_eq_ok hconditioner now
  unfold tick
  rw [hpoll, Checked.ok_bind]
  cases polled with
  | none => exact ⟨_, [], rfl, ⟨hconfig ▸ hconditioner, hhysteresis, htrigger⟩, .nil _, by simp⟩
  | some changed =>
    have hprecision : conditioner.precision ≤ maxPrecision := by
      rw [conditioner.precision_eq, hconfig]
      exact (ConditionerConfig.precision_of_validate hconditioner).2
    obtain ⟨value, hysteresis, hquantize, hhysteresis'⟩ :=
      quantize_eq_ok hhysteresis conditioner.value hprecision
    obtain ⟨trigger, emitted, heval, hkeep, hreported⟩ := Trigger.evaluate_eq_ok htrigger value now
    simp only [hquantize, heval, Checked.ok_bind]
    refine ⟨_, _, rfl, ⟨hconfig ▸ hconditioner, hhysteresis', ?_⟩, hreported, emitted.length_le⟩
    exact ⟨hkeep ▸ htrigger.accepted, hkeep ▸ htrigger.fits⟩

/-- A channel that is started is off. -/
theorem begin_sound (h : c.Sound) : c.begin.Sound ∧ c.begin.isOn = false := by
  obtain ⟨hconditioner, hhysteresis, htrigger⟩ := h
  have hreset := c.trigger.config_reset
  exact ⟨⟨c.conditioner.config_begin ▸ hconditioner, hhysteresis,
    ⟨hreset ▸ htrigger.accepted, hreset ▸ htrigger.fits⟩⟩, c.trigger.isOn_reset⟩

/-- A new baseline does not touch the gate. -/
theorem resetBaseline_sound (h : c.Sound) :
    c.resetBaseline.Sound ∧ c.resetBaseline.isOn = c.isOn := by
  obtain ⟨hconditioner, hhysteresis, htrigger⟩ := h
  exact ⟨⟨c.conditioner.config_resetBaseline ▸ hconditioner, hhysteresis, htrigger⟩, rfl⟩

end Channel

theorem Accepted.ofChannel_eq_ok {α : Type} {name : String} {x : Accepted α} {a : α} :
    x.ofChannel name = .ok a ↔ x = .ok a := by
  cases x <;> simp [ofChannel, Except.mapError]

namespace ChannelConfig

/-- The settings fit the words they are kept in. -/
def Fits (c : ChannelConfig) : Prop := c.trigger.Fits

instance (c : ChannelConfig) : Decidable c.Fits := inferInstanceAs (Decidable c.trigger.Fits)

theorem validate_eq_ok {c : ChannelConfig} :
    c.validate = .ok () ↔
      c.conditioning.validate = .ok () ∧ c.trigger.validate = .ok () ∧ c.output.validate = .ok () ∧
        (∀ bits ∈ c.hysteresisBits, bits < c.conditioning.precision) ∧ c.validBelow ≠ some 0 := by
  unfold validate
  simp only [Checked.seq_eq_ok, Accepted.ofChannel_eq_ok, Checked.throw_eq_error,
    Checked.error_bind]
  cases c.hysteresisBits <;> simp [Checked.refuse_eq_ok]

/-- The quantizer of the settings, for what the conditioner gives. -/
def quantizer (c : ChannelConfig) : Option Hysteresis :=
  c.hysteresisBits.map fun bits => { bits, inputBits := c.conditioning.precision }

/-- The quantizer of accepted settings can be built. -/
theorem quantizer_eq_ok {c : ChannelConfig} (hv : c.validate = .ok ()) :
    c.hysteresisBits.mapM (Hysteresis.build · c.conditioning.precision) = .ok c.quantizer ∧
      ∀ h ∈ c.quantizer, h.Sound := by
  obtain ⟨hconditioning, -, -, hbits, -⟩ := validate_eq_ok.mp hv
  obtain ⟨hpositive, hmax⟩ := ConditionerConfig.precision_of_validate hconditioning
  unfold maxPrecision at hmax
  unfold quantizer
  cases hset : c.hysteresisBits with
  | none => exact ⟨rfl, nofun⟩
  | some bits =>
    have hbuild : Hysteresis.build bits c.conditioning.precision =
        .ok { bits, inputBits := c.conditioning.precision } :=
      Hysteresis.build_eq_ok.mpr ⟨⟨hpositive, by omega⟩, hbits bits hset, rfl⟩
    constructor
    · simp only [Option.mapM_some, hbuild, Checked.map_ok, Option.map_some]
    · intro h hmem
      obtain rfl := Option.some.inj hmem
      exact Hysteresis.build_sound hbuild

variable {σ : Type}

/-- The channel of settings before its first tick. -/
def atRest (c : ChannelConfig) (source : σ) : Channel σ where
  name := c.name
  conditioner := c.conditioning.atRest (Feed.ofLimit source c.validBelow)
  hysteresis := c.quantizer
  trigger := c.trigger.atRest

theorem isOn_atRest (c : ChannelConfig) (source : σ) : (c.atRest source).isOn = false :=
  c.trigger.isOn_atRest

theorem atRest_sound {c : ChannelConfig} (hv : c.validate = .ok ()) (hf : c.Fits) (source : σ) :
    (c.atRest source).Sound := by
  obtain ⟨hconditioning, htrigger, -⟩ := validate_eq_ok.mp hv
  refine ⟨?_, (quantizer_eq_ok hv).2, ?_, ?_⟩
  · exact (c.conditioning.config_atRest _).symm ▸ hconditioning
  · exact c.trigger.config_atRest.symm ▸ htrigger
  · exact c.trigger.config_atRest.symm ▸ hf

/-- A channel is built from accepted settings and any source. -/
theorem build_eq [Source σ] {c : ChannelConfig} (hv : c.validate = .ok ()) (source : σ) :
    c.build source = .ok (c.atRest source) := by
  obtain ⟨hconditioning, htrigger, -⟩ := validate_eq_ok.mp hv
  have hassemble : Channel.assemble c.name
      (c.conditioning.atRest (Feed.ofLimit source c.validBelow)) c.quantizer c.trigger.atRest =
        .ok (c.atRest source) := by
    refine Channel.assemble_eq_ok _ _ fun h hmem => ?_
    obtain ⟨bits, -, rfl⟩ := Option.mem_map.mp hmem
    rw [Conditioner.precision_eq, ConditionerConfig.config_atRest]
  simp only [build, ConditionerConfig.build_eq hconditioning, (quantizer_eq_ok hv).1,
    TriggerConfig.build_eq_ok htrigger, hassemble, Checked.ok_bind]

end ChannelConfig

end SensorEvents
