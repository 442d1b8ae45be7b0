import SensorEvents.Proofs.Channel.Run
import SensorEvents.Proofs.Config.Validation

/-!
# The value that a trigger sees

What a trigger sees after a poll is the conditioned value, or the quantizer's level in its place. The
level stands for the value within one and a half steps, whatever the quantizer saw before, and at
the ends of the scale it is the value itself.
-/
namespace SensorEvents.ChannelConfig

/-- The value that is seen stands for the value that was conditioned. -/
structure Accurate (config : ChannelConfig) (conditioned seen : Nat) : Prop where
  le_full : seen ≤ 2 ^ config.conditioning.precision - 1
  same : config.hysteresisBits = none ∨ config.hysteresisBits = some 0 → seen = conditioned
  near : ∀ bits, config.hysteresisBits = some bits → 1 ≤ bits →
    seen < conditioned + 3 * 2 ^ (bits - 1) ∧ conditioned < seen + 3 * 2 ^ (bits - 1)
  zero : conditioned = 0 → seen = 0
  full : conditioned = 2 ^ config.conditioning.precision - 1 →
    seen = 2 ^ config.conditioning.precision - 1

variable {σ : Type} {config : ChannelConfig} {c c' : Channel σ} {now : Nat}

theorem Served.largest_eq (h : config.Served c) :
    BitDepth.largest c.conditioner.precision = 2 ^ config.conditioning.precision - 1 := by
  have hmax := (ConditionerConfig.precision_of_validate h.accepted).2
  unfold maxPrecision at hmax
  rw [h.precision_eq]
  exact BitDepth.largest_eq (by omega)

/-- What is seen of a value is accurate, whatever level the quantizer holds. -/
theorem Served.accurate (h : config.Served c) {conditioned seen : Nat}
    (hvalue : conditioned ≤ BitDepth.largest c.conditioner.precision)
    (hshown : Channel.Shown c.hysteresis conditioned seen) : config.Accurate conditioned seen := by
  have hquantizer := h.quantizer
  cases hset : c.hysteresis with
  | none =>
    obtain rfl := hshown.plain hset
    rw [hset] at hquantizer
    rw [h.largest_eq] at hvalue
    have hnone : config.hysteresisBits = none := Option.map_eq_none_iff.mp hquantizer.symm
    exact ⟨hvalue, fun _ => rfl, fun bits hbits => absurd (hnone ▸ hbits) nofun, id, id⟩
  | some x =>
    obtain ⟨hbits, hinput⟩ := h.bits_eq hset
    rw [← h.precision_eq] at hinput
    obtain ⟨hle, hsame, hnear, hzero, hfull⟩ :=
      (h.sound x hset).settled_widened (hinput ▸ hvalue) (hshown.widened x hset)
    rw [hinput, h.largest_eq] at hle hfull
    refine ⟨hle, fun hnone => ?_, fun bits hset' hpos => ?_, hzero, hfull⟩
    · rw [hbits] at hnone
      exact hsame (Option.some.inj (hnone.resolve_left nofun))
    · obtain rfl := Option.some.inj (hbits.symm.trans hset')
      exact hnear hpos

/-- In every run of a channel from accepted settings, the value that the trigger sees after a poll
stands for the value that was conditioned: it is in range, without dropped bits it is the same, with
dropped bits it is less than one and a half steps away, and zero and full scale are themselves. -/
theorem value_accurate [Source σ] [Elementary] (hv : config.validate = .ok ()) (hf : config.Fits)
    (source : σ) (calls : List ChannelCall) (now : Nat) :
    ∃ built c deliveries polled c' events, config.build source = .ok built ∧
      built.run calls = .ok (c, deliveries) ∧
      c.conditioner.poll now = .ok (polled, c'.conditioner) ∧ c.tick now = .ok (c', events) ∧
      (polled.isSome = true →
        (∃ emitted, c.trigger.evaluate c'.value now = .ok (c'.trigger, emitted) ∧
          events = emitted.events) ∧
        config.Accurate c'.conditioner.value c'.value) := by
  obtain ⟨built, c, deliveries, hbuild, hrun, hserved⟩ := run_eq_ok hv hf source calls
  obtain ⟨c', events, htick, hticked⟩ := hserved.tick_eq_ok now
  have hpoll := Conditioner.poll_eq hserved.timed now
  cases hticked with
  | early hdue =>
    rw [hdue, if_neg Bool.false_ne_true] at hpoll
    exact ⟨built, c, deliveries, _, _, _, hbuild, hrun, hpoll, htick, nofun⟩
  | polled hdue hadvance hvalue hquantize hshown heval =>
    rw [hdue, if_pos rfl, hadvance, Checked.map_ok] at hpoll
    exact ⟨built, c, deliveries, _, _, _, hbuild, hrun, hpoll, htick,
      fun _ => ⟨⟨_, heval, rfl⟩, hserved.accurate hvalue hshown⟩⟩

/-- A lever of which the quantizer drops two bits; all the way up it is at full scale. -/
theorem leverNamed_accurate :
    (leverNamed "left").validate = .ok () ∧ (leverNamed "left").Fits ∧
      ∃ (built c : Channel Scripted) (deliveries : List (List TimedEvent)) (c' : Channel Scripted)
        (events : List Event), letI := Elementary.linked
        (leverNamed "left").build (Scripted.ofList [7, 900, 1023]) = .ok built ∧
        built.run [.begin, .tick 1, .tick 2] = .ok (c, deliveries) ∧
        c.tick 3 = .ok (c', events) ∧ c'.conditioner.value = 127 ∧ c'.value = 127 := by
  let _ := Elementary.linked
  have hv : (leverNamed "left").validate = .ok () := Checked.eq_ok_of_isOk (by decide +kernel)
  have hf : (leverNamed "left").Fits := by decide
  obtain ⟨built, c, deliveries, polled, c', events, hbuild, hrun, hpoll, htick, haccurate⟩ :=
    value_accurate hv hf (Scripted.ofList [7, 900, 1023]) [.begin, .tick 1, .tick 2] 3
  have hpolled : ((leverNamed "left").build (Scripted.ofList [7, 900, 1023])).toOption.map
      (fun built => built.run [.begin, .tick 1, .tick 2] >>= fun run =>
        (fun poll => (poll.1, poll.2.value)) <$> run.1.conditioner.poll 3) =
        some (.ok (some true, 127)) := by decide +kernel
  rw [hbuild, Except.toOption, Option.map_some, hrun, Checked.ok_bind, hpoll, Checked.map_ok] at hpolled
  obtain ⟨rfl, hvalue⟩ := Prod.mk.inj (Except.ok.inj (Option.some.inj hpolled))
  exact ⟨hv, hf, built, c, deliveries, c', events, hbuild, hrun, htick, hvalue,
    (haccurate rfl).2.full hvalue⟩

end SensorEvents.ChannelConfig
