import SensorEvents.Proofs.Conditioning.Band
import SensorEvents.Proofs.Conditioning.Cadence
import SensorEvents.Proofs.Session.Channel
import SensorEvents.Proofs.Trigger.Spacing

/-!
# Runs of a channel

A channel is started, given new baselines and ticked in any order. `Channel.Ticked` is all that a
tick can do, and `ChannelConfig.Served` is what a channel keeps of the configuration it was built
from, whatever it is told.
-/
namespace SensorEvents

/-- What a channel is told. -/
inductive ChannelCall where
  | begin
  | resetBaseline
  | tick (now : Nat)
  deriving DecidableEq

/-- An event and the time of the tick that delivered it. -/
structure TimedEvent where
  time : Nat
  event : Event
  deriving DecidableEq, Repr

/-- The limit of a guarded feed. -/
def Feed.limit? {σ : Type} : Feed σ → Option Nat
  | plain _ => none
  | guarded g => some g.limit

/-- A quantizer of the same bits that has not seen a value. -/
def Hysteresis.cleared (h : Hysteresis) : Hysteresis := { h with level := 0 }

namespace Channel

variable {σ : Type} [Source σ] [Elementary]

/-- Carry out a call; the events that are delivered come with the channel. -/
def call (c : Channel σ) : ChannelCall → Checked (Channel σ × List TimedEvent)
  | .begin => .ok (c.begin, [])
  | .resetBaseline => .ok (c.resetBaseline, [])
  | .tick now => do
    let (c, events) ← c.tick now
    return (c, events.map (TimedEvent.mk now))

/-- Carry out calls one after the other. -/
def run (c : Channel σ) : List ChannelCall → Checked (Channel σ × List (List TimedEvent))
  | [] => .ok (c, [])
  | call :: calls => do
    let (c, events) ← c.call call
    let (c, deliveries) ← c.run calls
    return (c, events :: deliveries)

theorem run_cons {c c₁ c' : Channel σ} {call : ChannelCall} {calls : List ChannelCall}
    {events : List TimedEvent} {deliveries : List (List TimedEvent)}
    (hcall : c.call call = .ok (c₁, events)) (hrun : c₁.run calls = .ok (c', deliveries)) :
    c.run (call :: calls) = .ok (c', events :: deliveries) := by
  simp only [run, hcall, hrun, Checked.ok_bind]
  rfl

/-- The conditioner has made a step, and the trigger sees its value. -/
def react (c : Channel σ) (conditioner : Conditioner (Feed σ)) (now : Nat) :
    Checked (Channel σ × List Event) := do
  let (value, hysteresis) ← quantize c.hysteresis conditioner.value conditioner.precision
  let (trigger, emitted) ← c.trigger.evaluate value now
  return ({ c with conditioner, hysteresis, trigger, value }, emitted.events)

/-- A tick is a reaction when a poll is due, and nothing before. -/
theorem tick_eq {c : Channel σ} (h : c.conditioner.Started ∨ c.conditioner.lastUpdate = 0)
    (now : Nat) : c.tick now = if c.conditioner.isDue now then
        c.conditioner.awake.advance now >>= (c.react · now)
      else .ok ({ c with conditioner := c.conditioner.awake }, []) := by
  unfold tick
  rw [Conditioner.poll_eq h]
  cases c.conditioner.isDue now with
  | false => rfl
  | true => cases c.conditioner.awake.advance now <;> rfl

/-- What the trigger sees in place of a conditioned value. -/
structure Shown (hysteresis : Option Hysteresis) (conditioned seen : Nat) : Prop where
  plain : hysteresis = none → seen = conditioned
  widened : ∀ h ∈ hysteresis, (h.settled conditioned).Widened seen

/-- What a tick does. -/
inductive Ticked (c : Channel σ) (now : Nat) : Channel σ → List Event → Prop
  /-- It is too early for a poll. -/
  | early (hdue : c.conditioner.isDue now = false) :
    Ticked c now { c with conditioner := c.conditioner.awake } []
  /-- The trigger sees the value of a poll. -/
  | polled {conditioner : Conditioner (Feed σ)} {value : Nat} {trigger : Trigger}
    {emitted : Emitted} (hdue : c.conditioner.isDue now = true)
    (hadvance : c.conditioner.awake.advance now = .ok conditioner)
    (hvalue : conditioner.value ≤ BitDepth.largest c.conditioner.precision)
    (hquantize : quantize c.hysteresis conditioner.value c.conditioner.precision =
      .ok (value, c.hysteresis.map (·.settled conditioner.value)))
    (hshown : Shown c.hysteresis conditioner.value value)
    (heval : c.trigger.evaluate value now = .ok (trigger, emitted)) :
    Ticked c now
      { c with
        conditioner
        hysteresis := c.hysteresis.map (·.settled conditioner.value)
        trigger
        value } emitted.events

end Channel

/-! ## The stages -/

/-- The value for the trigger, from a value of the quantizer's input. -/
theorem Channel.quantize_eq {hysteresis : Option Hysteresis} {precision value : Nat}
    (h : ∀ x ∈ hysteresis, x.Sound ∧ x.inputBits = precision)
    (hvalue : value ≤ BitDepth.largest precision) :
    ∃ seen, quantize hysteresis value precision = .ok (seen, hysteresis.map (·.settled value)) ∧
      Shown hysteresis value seen := by
  cases hysteresis with
  | none => exact ⟨value, rfl, fun _ => rfl, nofun⟩
  | some x =>
    obtain ⟨hsound, rfl⟩ := h x rfl
    obtain ⟨changed, hupdate⟩ := hsound.update_eq value
    have hsettled := hsound.settled_sound hvalue
    obtain ⟨seen, hwiden, hwidened⟩ := hsettled.widen_eq_ok
    rw [Nat.min_eq_left hvalue] at hupdate
    rw [x.settled_inputBits] at hwiden
    refine ⟨seen, ?_, nofun, fun y hy => Option.some.inj hy ▸ hwidened⟩
    simp only [quantize, hupdate, hsettled.outputBits_eq_ok, x.settled_inputBits, hwiden,
      Checked.ok_bind]
    rfl

theorem Hysteresis.cleared_settled (h : Hysteresis) (value : Nat) :
    (h.settled value).cleared = h.cleared := by
  unfold settled
  split_ifs <;> rfl

theorem Feed.limit?_read {σ : Type} [Source σ] (feed : Feed σ) :
    (Source.read feed).2.limit? = feed.limit? := by
  cases feed <;> rfl

theorem Feed.limit?_ofLimit {σ : Type} (source : σ) (limit : Option Nat) :
    (ofLimit source limit).limit? = limit := by
  cases limit <;> rfl

/-- No call changes how readings are guarded. -/
theorem Conditioner.limit?_kept {σ : Type} [Source σ] (c : Conditioner (Feed σ)) :
    c.begin.source.limit? = c.source.limit? ∧
      c.resetBaseline.source.limit? = c.source.limit? ∧
      c.awake.source.limit? = c.source.limit? :=
  c.source_kept Feed.limit?_read

/-! ## Calls -/

namespace ChannelConfig

variable {σ : Type} {config : ChannelConfig} {c c' : Channel σ} {now : Nat} {events : List Event}

/-- What a channel keeps of the configuration it was built from. -/
structure Served (config : ChannelConfig) (c : Channel σ) : Prop where
  accepted : config.conditioning.validate = .ok ()
  conditioning : c.conditioner.config = config.conditioning
  limit : c.conditioner.source.limit? = config.validBelow
  /-- The time of the last poll is that of a poll, or zero. -/
  timed : c.conditioner.Started ∨ c.conditioner.lastUpdate = 0
  sound : ∀ h ∈ c.hysteresis, h.Sound
  quantizer : c.hysteresis.map Hysteresis.cleared = config.quantizer
  gated : c.trigger.Gated
  settings : c.trigger.config = config.trigger

theorem atRest_served (hv : config.validate = .ok ()) (hf : config.Fits) (source : σ) :
    config.Served (config.atRest source) where
  accepted := (validate_eq_ok.mp hv).1
  conditioning := config.conditioning.config_atRest _
  limit := by
    rw [atRest, (Conditioner.atRest_fresh config.conditioning _).1, Feed.limit?_ofLimit]
  timed := .inr (Conditioner.atRest_fresh config.conditioning _).2
  sound := (quantizer_eq_ok hv).2
  quantizer := by
    rw [atRest, quantizer, Option.map_map]
    rfl
  gated := Trigger.atRest_gated (validate_eq_ok.mp hv).2.1 hf
  settings := config.trigger.config_atRest

namespace Served

/-- The bits of the quantizer are those that are set. -/
theorem bits_eq (h : config.Served c) {x : Hysteresis} (hx : x ∈ c.hysteresis) :
    config.hysteresisBits = some x.bits ∧ x.inputBits = config.conditioning.precision := by
  have hmem : x.cleared ∈ config.quantizer := h.quantizer ▸ Option.mem_map_of_mem _ hx
  obtain ⟨bits, hbits, heq⟩ := Option.mem_map.mp hmem
  exact ⟨hbits.trans (congrArg some (congrArg Hysteresis.bits heq)),
    (congrArg Hysteresis.inputBits heq).symm⟩

theorem precision_eq (h : config.Served c) :
    c.conditioner.precision = config.conditioning.precision := by
  rw [c.conditioner.precision_eq, h.conditioning]

theorem readable (h : config.Served c) : c.conditioner.Readable := by
  have haccepted : c.conditioner.config.validate = .ok () := h.conditioning ▸ h.accepted
  unfold Conditioner.Readable
  cases hc : c.conditioner with
  | adaptive => exact trivial
  | direct reader =>
    rw [hc] at haccepted
    exact haccepted

section Starting

variable [Source σ]

theorem begin_served (h : config.Served c) : config.Served c.begin :=
  { h with
    conditioning := c.conditioner.config_begin.trans h.conditioning
    limit := c.conditioner.limit?_kept.1.trans h.limit
    timed := .inl c.conditioner.begin_started
    gated := Trigger.reset_gated h.gated
    settings := c.trigger.config_reset.trans h.settings }

theorem resetBaseline_served (h : config.Served c) : config.Served c.resetBaseline :=
  { h with
    conditioning := c.conditioner.config_resetBaseline.trans h.conditioning
    limit := c.conditioner.limit?_kept.2.1.trans h.limit
    timed := .inl c.conditioner.resetBaseline_keeps.1 }

end Starting

variable [Source σ] [Elementary]

/-- A tick has a result, and does what ticks do. -/
theorem tick_eq_ok (h : config.Served c) (now : Nat) :
    ∃ c' events, c.tick now = .ok (c', events) ∧ Channel.Ticked c now c' events := by
  obtain ⟨hstarted, hconfig, hreadable, -⟩ := c.conditioner.awake_keeps
  rw [Channel.tick_eq h.timed]
  cases hdue : c.conditioner.isDue now with
  | false => exact ⟨_, _, rfl, .early hdue⟩
  | true =>
    obtain ⟨k, hadvance, hadvanced⟩ :=
      Conditioner.advance_eq_ok (hreadable h.readable) now
    have hprecision : c.conditioner.awake.precision = c.conditioner.precision := by
      rw [Conditioner.precision_eq, Conditioner.precision_eq, hconfig]
    have hprecision' : k.precision = c.conditioner.precision := by
      rw [k.precision_eq, c.conditioner.precision_eq, hadvanced.config, hconfig]
    have hvalue := hprecision ▸ hadvanced.value_le
    obtain ⟨value, hquantize, hshown⟩ := Channel.quantize_eq
      (fun x hx => ⟨h.sound x hx, (h.bits_eq hx).2.trans h.precision_eq.symm⟩) hvalue
    obtain ⟨trigger, emitted, heval, -, -⟩ := Trigger.evaluate_eq_ok h.gated.sound value now
    refine ⟨_, _, ?_, .polled hdue hadvance hvalue hquantize hshown heval⟩
    simp only [if_true, hadvance, Channel.react, hprecision', hquantize, heval, Checked.ok_bind]
    rfl

/-- A tick keeps what a channel keeps. -/
theorem ticked (h : config.Served c) (ht : Channel.Ticked c now c' events) :
    config.Served c' := by
  obtain ⟨hstarted, hconfig, hreadable, -⟩ := c.conditioner.awake_keeps
  have hlimit : c.conditioner.awake.source.limit? = config.validBelow :=
    c.conditioner.limit?_kept.2.2.trans h.limit
  cases ht with
  | early hdue =>
    exact { h with
      conditioning := hconfig.trans h.conditioning
      limit := hlimit
      timed := .inl hstarted }
  | polled hdue hadvance hvalue hquantize hshown heval =>
    obtain ⟨k, hadvance', hadvanced⟩ := Conditioner.advance_eq_ok (hreadable h.readable) now
    obtain rfl := Checked.ok_unique hadvance hadvance'
    obtain ⟨last, emitted', passages, asked, heval'⟩ := Trigger.evaluated h.gated _ now
    obtain ⟨rfl, rfl⟩ := Checked.ok_unique_pair heval heval'.evaluate_eq
    refine { h with
      conditioning := (hadvanced.config.trans hconfig).trans h.conditioning
      limit := ?_
      timed := .inl (hadvanced.started hstarted)
      sound := ?_
      quantizer := ?_
      gated := heval'.logged.gated
      settings := (Trigger.evaluate_reported h.gated.sound heval).1.trans h.settings }
    · dsimp only
      rw [hadvanced.source, Feed.limit?_read]
      exact hlimit
    · intro y hy
      obtain ⟨x, hx, rfl⟩ := Option.mem_map.mp hy
      refine (h.sound x hx).settled_sound ?_
      rw [(h.bits_eq hx).2, ← h.precision_eq]
      exact hvalue
    · rw [Option.map_map, ← h.quantizer]
      exact congrFun (congrArg _ (funext fun x => x.cleared_settled _)) _

/-- A call has a result. -/
theorem call_eq_ok (h : config.Served c) (call : ChannelCall) :
    ∃ c' events, c.call call = .ok (c', events) ∧ config.Served c' := by
  cases call with
  | begin => exact ⟨c.begin, [], rfl, h.begin_served⟩
  | resetBaseline => exact ⟨c.resetBaseline, [], rfl, h.resetBaseline_served⟩
  | tick now =>
    obtain ⟨c', events, htick, hticked⟩ := h.tick_eq_ok now
    refine ⟨c', events.map (TimedEvent.mk now), ?_, h.ticked hticked⟩
    simp only [Channel.call, htick, Checked.ok_bind]
    rfl

/-- A run has a result, and the channel still serves its configuration. -/
theorem run_eq_ok (h : config.Served c) (calls : List ChannelCall) :
    ∃ c' deliveries, c.run calls = .ok (c', deliveries) ∧ config.Served c' := by
  induction calls generalizing c with
  | nil => exact ⟨c, [], rfl, h⟩
  | cons call calls ih =>
    obtain ⟨c₁, events, hcall, h₁⟩ := h.call_eq_ok call
    obtain ⟨c', deliveries, hrun, h'⟩ := ih h₁
    exact ⟨c', events :: deliveries, Channel.run_cons hcall hrun, h'⟩

end Served

/-- A channel of accepted settings is built, and serves them in every run. -/
theorem run_eq_ok [Source σ] [Elementary] (hv : config.validate = .ok ()) (hf : config.Fits)
    (source : σ) (calls : List ChannelCall) :
    ∃ built c deliveries, config.build source = .ok built ∧
      built.run calls = .ok (c, deliveries) ∧ config.Served c := by
  obtain ⟨c, deliveries, hrun, hserved⟩ := (atRest_served hv hf source).run_eq_ok calls
  exact ⟨_, c, deliveries, build_eq hv source, hrun, hserved⟩

end ChannelConfig

end SensorEvents
