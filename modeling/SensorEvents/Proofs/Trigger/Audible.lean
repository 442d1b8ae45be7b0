import SensorEvents.Proofs.Midi.Sink
import SensorEvents.Proofs.Trigger.Settling
import SensorEvents.Proofs.Trigger.Timing

/-!
# Notes that can be heard

A receiver takes a note on without velocity for a note off, while the sink holds the note. An on has
a velocity inside the outputs of the settings it started with, since no setter of a trigger at work
reaches them. Accepted outputs may begin at zero, and then some run does play such a note: the
speeds can be set so high that every crossing is a slow one.
-/
namespace SensorEvents

/-- The least and the greatest velocity of settings that have them. -/
def TriggerConfig.outputs : TriggerConfig → Option (Nat × Nat)
  | velocity c => some (c.velocity.minOutput, c.velocity.maxOutput)
  | _ => none

/-- Some trigger of these settings reports the event, after some calls. -/
def VelocityConfig.Emits (c : VelocityConfig) (e : Event) : Prop :=
  ∃ calls t t' log value now last emitted, (∀ call ∈ calls, TriggerCall.Fits call) ∧
    (TriggerConfig.velocity c).build = .ok t ∧ t.run calls = .ok (t', log) ∧
    t'.evaluate value now = .ok (last, emitted) ∧ e ∈ emitted.events

/-- For a channel that is bound to a note a sink sends the event as a note on with its velocity, and
holds the note. -/
def Event.PlaysNotes (e : Event) : Prop :=
  ∀ (s : MidiSink) (id channel note : Nat), s.binding? id = some (.note channel note) →
    (s.receive id e).2 = [.noteOn channel note e.intensity] ∧ (s.receive id e).1.isHeld id = true

/-- Speeds that no crossing in a domain of 14 bits comes near. -/
def VelocityConfig.slowed (c : VelocityConfig) : VelocityConfig :=
  { c with
    velocity := { c.velocity with
      minPhysical := Single.ofNat 16384
      maxPhysical := Single.ofNat 32768 }
    debounce := 0 }

/-- The calls that bring a trigger to such speeds. -/
def slowingCalls : List TriggerCall :=
  [.set (.velocityBounds (Single.ofNat 16384) (Single.ofNat 32768)), .set (.debounce 0)]

/-- A crossing within one millisecond is no faster than its distance. -/
theorem VelocityMap.physical_le {distance top : Nat} (h : distance ≤ top) (htop : top ≤ 2 ^ 24) :
    physical distance 0 ≤ Single.ofNat top := by
  obtain ⟨hdistance, hexact⟩ := Single.exact_ofNat (h.trans htop)
  obtain ⟨hfinite, htop'⟩ := Single.exact_ofNat htop
  obtain ⟨hone, hone'⟩ := Single.exact_ofNat (n := 1) (by norm_num)
  have hspeed : Single.Rounds (physical distance 0) (distance / 1) := by
    have hdiv := Single.div_rounds hdistance hone (by rw [hone']; norm_num)
    rwa [hexact, hone', Nat.cast_one] at hdiv
  have hself := Single.rounds_self hfinite
  rw [Single.le_iff_exact hspeed.number hself.number]
  refine hspeed.mono hself ?_
  rw [htop', div_one]
  exact_mod_cast h

section Slowed

variable {c : VelocityConfig}

theorem VelocityConfig.slowed_accepted (hv : c.validate = .ok ()) : c.slowed.validate = .ok () := by
  obtain ⟨hinput, hmap, horder⟩ := VelocityConfig.validate_eq_ok.mp hv
  obtain ⟨-, houtputs⟩ := VelocityMap.validate_eq_ok.mp hmap
  have hspeeds : (Single.ofNat 16384).isFinite = true ∧ (Single.ofNat 32768).isFinite = true ∧
      ¬ Single.ofNat 16384 ≥ Single.ofNat 32768 := by decide +kernel
  exact VelocityConfig.validate_eq_ok.mpr
    ⟨hinput, VelocityMap.validate_eq_ok.mpr ⟨hspeeds, houtputs⟩, horder⟩

/-- At such speeds the fastest crossing is as soft as the slowest. -/
theorem VelocityConfig.velocityFor_slowed (hv : c.validate = .ok ()) :
    c.slowed.velocityFor 0 = .ok c.velocity.minOutput := by
  have hv' := slowed_accepted hv
  obtain ⟨hinput, hmap, horder, htop⟩ := VelocityConfig.validate_eq_ok.mp hv'
  obtain ⟨-, hwidest, -⟩ := InputRange.validate_eq_ok.mp hinput
  -- two thresholds are less than 16384 apart, and a crossing is counted as one millisecond at least
  have hdistance : c.slowed.trigger - c.slowed.minNote ≤ 16384 := by
    unfold InputRange.widest at hwidest
    omega
  unfold velocityFor distance
  rw [Checked.sub_eq_ok horder.le, Checked.ok_bind]
  exact VelocityMap.intensity_of_le hmap (VelocityMap.physical_le hdistance (by norm_num))

theorem run_slowing (hv : c.validate = .ok ()) :
    (TriggerConfig.velocity c).atRest.run slowingCalls =
      .ok ((TriggerConfig.velocity c.slowed).atRest, []) := by
  have hmap := (VelocityConfig.validate_eq_ok.mp (VelocityConfig.slowed_accepted hv)).2.1
  unfold VelocityConfig.slowed at hmap
  simp only [slowingCalls, Trigger.run, Trigger.call, Trigger.change, TriggerConfig.atRest,
    VelocityTrigger.setVelocityBounds, hmap, Checked.ok_bind, Checked.pure_eq_ok, Checked.map_ok,
    List.append_nil]
  rfl

end Slowed

namespace Trigger

/-- A change of the settings leaves the velocities of a trigger alone. -/
theorem change_outputs {t t' : Trigger} {setting : TriggerSetting}
    (h : t.change setting = .ok t') : t'.config.outputs = t.config.outputs := by
  rw [change_config h]
  cases t.config <;> cases setting <;> rfl

end Trigger

namespace VelocityTrigger

/-- Every on of an evaluation has the velocity of some time up to now. -/
theorem evaluate_timed {t : VelocityTrigger} {log : List LogEntry} (h : (Trigger.velocity t).Gated)
    (hclocked : t.Clocked log) (value now : Nat) :
    ∃ last emitted, t.evaluate value now = .ok (last, emitted) ∧
      ∀ e ∈ emitted.events, e.kind = .on →
        ∃ since, t.config.velocityFor (now - since) = .ok e.intensity := by
  obtain ⟨last, emitted, reports, heval, -, -, hevents, -, htimed⟩ :=
    t.evaluate_recorded h.sound.accepted h.sound.fits h.interval hclocked value now
  refine ⟨last, emitted, heval, fun e he hon => ?_⟩
  rw [← hevents] at he
  obtain ⟨⟨p, report⟩, hmem, hreport⟩ := List.mem_filterMap.mp he
  obtain rfl : report = some e := hreport
  obtain ⟨early, late, hsplit⟩ := List.append_of_mem hmem
  obtain ⟨since, -, ⟨-, -, hvelocity⟩ | ⟨hoff, -⟩⟩ := htimed early p e late hsplit
  · exact ⟨since, hvelocity⟩
  · exact nomatch hon.symm.trans hoff

/-- A trigger at rest that has no interval to keep is played by one reading. -/
theorem exists_on {c : VelocityConfig} (hv : c.validate = .ok ()) (hf : c.input.Fits)
    (hinterval : c.debounce = 0) :
    ∃ value last emitted, (TriggerConfig.velocity c).atRest.evaluate value 0 = .ok (last, emitted) ∧
      ∃ e ∈ emitted.events, e.kind = .on := by
  obtain ⟨hinput, -, horder, htop⟩ := VelocityConfig.validate_eq_ok.mp hv
  obtain ⟨value, -, happly⟩ := InputRange.exists_apply_eq_outputMax hinput hf
  obtain ⟨v, last, emitted, happly', -, heval, hcascade⟩ :=
    evaluate_eq (t := { config := c, gate := { interval := c.debounce } }) hv hf value 0
  obtain rfl := Checked.ok_unique happly happly'
  -- arming and turning on happen in one evaluation, so the trigger ends where the value stands
  have hphase := (hcascade.rests_of_unspaced hinterval).phase_eq (hcascade.config_eq ▸ horder)
  rw [hcascade.config_eq, if_pos htop] at hphase
  have hturned := (hcascade.reported hv).follows
  simp only [isOn, hphase] at hturned
  exact ⟨value, .velocity last, emitted, Trigger.evaluate_of_velocity heval,
    exists_on_of_gateAfter? hturned⟩

end VelocityTrigger

theorem Event.PlaysNotes.of_on {e : Event} (hon : e.kind = .on) (hle : e.intensity ≤ 127) :
    e.PlaysNotes := by
  intro s id channel note hb
  have hroute := MidiSink.route?_of_binding? hb
  have hmessage : (MidiBinding.note channel note).message? e =
      some (.noteOn channel note e.intensity) := by
    simp only [MidiBinding.message?, hon, Nat.min_eq_left hle]
  constructor
  · simp only [MidiSink.receive, hroute, hmessage]
  · rw [s.isHeld_receive id hroute hmessage, if_pos rfl, hon]
    rfl

namespace VelocityConfig

variable {c : VelocityConfig}

/-- Whatever is called, every on has a velocity between the outputs of the settings. -/
theorem runs_between (hv : c.validate = .ok ()) (hf : c.input.Fits) {calls : List TriggerCall}
    (hcalls : ∀ call ∈ calls, call.Fits) :
    ∃ t log, (TriggerConfig.velocity c).atRest.run calls = .ok (.velocity t, log) ∧
      ∀ value now, ∃ last emitted, t.evaluate value now = .ok (last, emitted) ∧
        ∀ e ∈ emitted.events, e.kind = .on →
          c.velocity.minOutput ≤ e.intensity ∧ e.intensity ≤ c.velocity.maxOutput := by
  have hrest : (TriggerConfig.velocity c).atRest.Gated := Trigger.atRest_gated hv hf
  obtain ⟨t, log, hrun, hgated, hclocked⟩ := Trigger.run_clocked hrest (.atRest c) hcalls
  have houtputs := Trigger.run_keeps Trigger.change_outputs hrest hcalls hrun
  obtain ⟨hmin, hmax⟩ := Prod.mk.inj (Option.some.inj houtputs)
  refine ⟨t, log, hrun, fun value now => ?_⟩
  obtain ⟨last, emitted, heval, htimed⟩ := t.evaluate_timed hgated hclocked value now
  refine ⟨last, emitted, heval, fun e he hon => ?_⟩
  obtain ⟨since, hvelocity⟩ := htimed e he hon
  have hbetween := VelocityTrigger.velocity_between hgated.sound.accepted hvelocity
  rwa [hmin, hmax] at hbetween

theorem Emits.between (hv : c.validate = .ok ()) (hf : c.input.Fits) {e : Event} (h : c.Emits e)
    (hon : e.kind = .on) :
    c.velocity.minOutput ≤ e.intensity ∧ e.intensity ≤ c.velocity.maxOutput := by
  obtain ⟨calls, t, t', log, value, now, last, emitted, hcalls, hbuild, hrun, heval, he⟩ := h
  obtain rfl := Checked.ok_unique hbuild (TriggerConfig.build_eq_ok hv)
  obtain ⟨t₁, log₁, hrun₁, heach⟩ := runs_between hv hf hcalls
  obtain ⟨rfl, -⟩ := Checked.ok_unique_pair hrun hrun₁
  obtain ⟨last₁, emitted₁, heval₁, hbetween⟩ := heach value now
  obtain ⟨-, rfl⟩ := Checked.ok_unique_pair heval (Trigger.evaluate_of_velocity heval₁)
  exact hbetween e he hon

/-- Some run plays a note with the least velocity there is. -/
theorem exists_emits_minOutput (hv : c.validate = .ok ()) (hf : c.input.Fits) :
    ∃ e, c.Emits e ∧ e.kind = .on ∧ e.intensity = c.velocity.minOutput := by
  have hv' := slowed_accepted hv
  obtain ⟨value, last, emitted, heval, e, he, hon⟩ := VelocityTrigger.exists_on hv' hf rfl
  have hcalls : ∀ call ∈ slowingCalls, TriggerCall.Fits call := by
    unfold slowingCalls
    simp [TriggerCall.Fits, TriggerSetting.Fits]
  refine ⟨e, ⟨slowingCalls, _, _, _, value, 0, last, emitted, hcalls, TriggerConfig.build_eq_ok hv,
    run_slowing hv, heval, he⟩, hon, ?_⟩
  have hrest : (TriggerConfig.velocity c.slowed).atRest.Gated := Trigger.atRest_gated hv' hf
  obtain ⟨last', emitted', heval', htimed⟩ :=
    VelocityTrigger.evaluate_timed hrest (.atRest c.slowed) value 0
  obtain ⟨-, rfl⟩ := Checked.ok_unique_pair heval (Trigger.evaluate_of_velocity heval')
  obtain ⟨since, hvelocity⟩ := htimed e he hon
  rw [Nat.zero_sub, velocityFor_slowed hv] at hvelocity
  exact (Except.ok.inj hvelocity).symm

end VelocityConfig

/-- Accepted outputs are in order and data bytes. In every trigger with such a map, whatever is
called, an on has a velocity among them and plays a bound note with it; no run plays a note without
velocity just when the outputs begin at one or above. -/
theorem VelocityMap.on_velocities {m : VelocityMap} (hm : m.validate = .ok ()) :
    m.minOutput ≤ m.maxOutput ∧ m.maxOutput ≤ 127 ∧
      ∀ c : VelocityConfig, c.velocity = m → c.validate = .ok () → c.input.Fits →
        (∀ calls : List TriggerCall, (∀ call ∈ calls, call.Fits) →
          ∃ t t' log, (TriggerConfig.velocity c).build = .ok t ∧ t.run calls = .ok (t', log) ∧
            ∀ value now, ∃ last emitted, t'.evaluate value now = .ok (last, emitted) ∧
              ∀ e ∈ emitted.events, e.kind = .on →
                m.minOutput ≤ e.intensity ∧ e.intensity ≤ m.maxOutput ∧ e.PlaysNotes) ∧
        ((∀ e, c.Emits e → e.kind = .on → 1 ≤ e.intensity) ↔ 1 ≤ m.minOutput) := by
  obtain ⟨-, horder, hmax⟩ := VelocityMap.validate_eq_ok.mp hm
  refine ⟨horder, hmax, ?_⟩
  rintro c rfl hv hf
  refine ⟨?_, ?_, ?_⟩
  · intro calls hcalls
    obtain ⟨t, log, hrun, heach⟩ := VelocityConfig.runs_between hv hf hcalls
    refine ⟨_, .velocity t, log, TriggerConfig.build_eq_ok hv, hrun, fun value now => ?_⟩
    obtain ⟨last, emitted, heval, hbetween⟩ := heach value now
    refine ⟨.velocity last, emitted, Trigger.evaluate_of_velocity heval, fun e he hon => ?_⟩
    obtain ⟨hge, hle⟩ := hbetween e he hon
    exact ⟨hge, hle, .of_on hon (hle.trans hmax)⟩
  · intro hheard
    obtain ⟨e, hemits, hon, hleast⟩ := VelocityConfig.exists_emits_minOutput hv hf
    exact hleast ▸ hheard e hemits hon
  · intro hleast e hemits hon
    exact hleast.trans (hemits.between hv hf hon).1

/-- The timed pad has outputs from one on, and each of its ons can be heard. -/
theorem releasedPad_audible :
    releasedPad.velocity.validate = .ok () ∧ releasedPad.validate = .ok () ∧
      releasedPad.input.Fits ∧ releasedPad.velocity.maxOutput ≤ 127 ∧
      (∃ e, releasedPad.Emits e ∧ e.kind = .on) ∧
      ∀ e, releasedPad.Emits e → e.kind = .on → 1 ≤ e.intensity := by
  have hv := releasedPad_accepted
  have hm := (VelocityConfig.validate_eq_ok.mp hv).2.1
  have hfits : releasedPad.input.Fits := by decide
  obtain ⟨-, hmax, hruns⟩ := VelocityMap.on_velocities hm
  obtain ⟨-, haudible⟩ := hruns releasedPad rfl hv hfits
  obtain ⟨e, hemits, hon, -⟩ := VelocityConfig.exists_emits_minOutput hv hfits
  exact ⟨hm, hv, hfits, hmax, ⟨e, hemits, hon⟩, haudible.mpr (by decide)⟩

/-- A pad whose slowest crossing has no velocity. -/
def mutedPad : VelocityConfig where
  minNote := 40
  trigger := 60
  velocity := { minPhysical := 0.5, maxPhysical := 2, minOutput := 0 }

/-- The pad is accepted; a slow press of it sends a note on without velocity, and the sink holds a
note that no receiver hears. -/
theorem mutedPad_silent :
    mutedPad.velocity.validate = .ok () ∧ ¬ 1 ≤ mutedPad.velocity.minOutput ∧
      (∃ t t' log last emitted, (TriggerConfig.velocity mutedPad).build = .ok t ∧
        t.run [.evaluate 50 0] = .ok (t', log) ∧ t'.evaluate 90 100 = .ok (last, emitted) ∧
        emitted.events = [.on 0]) ∧
      ((MidiSink.empty.bind 0 (.note 0 60)).receive 0 (.on 0)).2 = [.noteOn 0 60 0] ∧
      ((MidiSink.empty.bind 0 (.note 0 60)).receive 0 (.on 0)).1.isHeld 0 = true := by
  have hv : mutedPad.validate = .ok () := Checked.eq_ok_of_isOk (by decide +kernel)
  have hpress : ((Trigger.velocity ⟨mutedPad, .arming 0, ⟨2, some 0⟩⟩).evaluate 90 100).toOption.map
      (fun result => result.2.events) = some [.on 0] := by decide +kernel
  obtain ⟨last, emitted, heval, -⟩ := Trigger.evaluate_eq_ok
    (t := .velocity ⟨mutedPad, .arming 0, ⟨2, some 0⟩⟩) ⟨hv, by decide⟩ 90 100
  rw [heval] at hpress
  exact ⟨(VelocityConfig.validate_eq_ok.mp hv).2.1, by decide, ⟨_, _, _, last, emitted,
    TriggerConfig.build_eq_ok hv, rfl, heval, Option.some.inj hpress⟩, rfl, rfl⟩

end SensorEvents
