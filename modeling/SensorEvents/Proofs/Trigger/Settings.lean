import SensorEvents.Proofs.Trigger.Spacing

/-!
# Settings of a trigger at work

A setter checks more or less of the settings, and some check nothing. For a trigger that is at work
this makes no difference: a setting is taken just when the settings are accepted with it in place,
and then nothing but the settings and the interval of the gate changes. So the settings in force
are those of the start with the changes that were accepted one after the other, and a reset leads to
the trigger that is built from them.
-/
namespace SensorEvents

namespace Checked

variable {ε α β : Type}

theorem map_seq (x : Except ε Unit) (f : α → β) (a : α) :
    f <$> (x >>= fun _ => pure a) = x >>= fun _ => pure (f a) := by
  cases x <;> rfl

theorem seq_of_ok {x : Except ε Unit} (h : x = .ok ()) (y : Except ε β) :
    (x >>= fun _ => y) = y := by
  rw [h, ok_bind]

end Checked

/-- In accepted settings a velocity map is all that a check of it can refuse. -/
theorem VelocityConfig.validate_with_velocity {c : VelocityConfig} (h : c.validate = .ok ())
    (map : VelocityMap) : ({ c with velocity := map } : VelocityConfig).validate = map.validate := by
  obtain ⟨hinput, -, hlt, hle⟩ := validate_eq_ok.mp h
  unfold validate
  simp only [hinput, Checked.ok_bind, ge_iff_le, gt_iff_lt, Nat.not_le.mpr hlt,
    Nat.not_lt.mpr hle, if_false]
  cases map.validate with
  | ok _ => rfl
  | error _ => rfl

namespace TriggerConfig

/-- The settings with one of them replaced; settings without such a one stay as they are. -/
def adjust (c : TriggerConfig) (setting : TriggerSetting) : TriggerConfig :=
  match c, setting with
  | velocity c, .thresholds minNote trigger => velocity { c with minNote, trigger }
  | velocity c, .inputRange input => velocity { c with input }
  | velocity c, .velocityBounds minPhysical maxPhysical =>
    velocity { c with velocity := { c.velocity with minPhysical, maxPhysical } }
  | velocity c, .releaseVelocity releaseVelocity => velocity { c with releaseVelocity }
  | velocity c, .debounce debounce => velocity { c with debounce }
  | threshold c, .threshold value hysteresis =>
    threshold { c with threshold := value, hysteresis }
  | threshold c, .debounce debounce => threshold { c with debounce }
  | pressure c, .thresholds minNote trigger => pressure { c with minNote, trigger }
  | pressure c, .debounce debounce => pressure { c with debounce }
  | c, _ => c

/-- The settings after a call. -/
def told (c : TriggerConfig) : TriggerCall → TriggerConfig
  | .set setting => if (c.adjust setting).validate.isOk then c.adjust setting else c
  | .evaluate _ _ => c
  | .reset => c

end TriggerConfig

namespace Trigger

/-- The trigger with other settings, at the same place of its cycle and with the same clock. -/
def configured (t : Trigger) (c : TriggerConfig) : Trigger :=
  match t, c with
  | velocity t, .velocity c =>
    velocity { t with config := c, gate := t.gate.setInterval c.debounce }
  | threshold t, .threshold c =>
    threshold { t with config := c, gate := t.gate.setInterval c.debounce }
  | pressure t, .pressure c => pressure { t with config := c, gate := t.gate.setInterval c.debounce }
  | continuous t, .continuous c => continuous { t with config := c }
  | t, _ => t

variable {t t' : Trigger}

/-- A setting is taken just when the settings are accepted with it in place. -/
theorem change_eq (h : t.Gated) (setting : TriggerSetting) :
    t.change setting =
      (t.config.adjust setting).validate >>= fun _ =>
        pure (t.configured (t.config.adjust setting)) := by
  obtain ⟨⟨hv, -⟩, hinterval⟩ := h
  -- A gate that waits for the interval set is left as it is by a setting of that interval.
  cases t with
  | velocity t =>
    obtain ⟨config, phase, ⟨interval, last⟩⟩ := t
    obtain rfl : interval = config.debounce := hinterval
    have hv : config.validate = .ok () := hv
    cases setting with
    | thresholds _ _ => exact Checked.map_seq _ _ _
    | inputRange _ => exact Checked.map_seq _ _ _
    | velocityBounds low high =>
      -- Only the map is checked, but the rest was accepted before.
      refine (Checked.map_seq _ _ _).trans ?_
      exact congrArg (· >>= _) (VelocityConfig.validate_with_velocity hv _).symm
    | releaseVelocity _ => exact (Checked.seq_of_ok hv _).symm
    | debounce _ => exact (Checked.seq_of_ok hv _).symm
    | threshold _ _ => exact (Checked.seq_of_ok hv _).symm
  | threshold t =>
    obtain ⟨config, on, ⟨interval, last⟩⟩ := t
    obtain rfl : interval = config.debounce := hinterval
    have hv : config.validate = .ok () := hv
    cases setting with
    | threshold _ _ => exact Checked.map_seq _ _ _
    | _ => exact (Checked.seq_of_ok hv _).symm
  | pressure t =>
    obtain ⟨config, on, pressure, ⟨interval, last⟩⟩ := t
    obtain rfl : interval = config.debounce := hinterval
    have hv : config.validate = .ok () := hv
    cases setting with
    | thresholds _ _ => exact Checked.map_seq _ _ _
    | _ => exact (Checked.seq_of_ok hv _).symm
  | continuous t =>
    have hv : t.config.validate = .ok () := hv
    cases setting <;> exact (Checked.seq_of_ok hv _).symm

theorem change_eq_ok (h : t.Gated) {setting : TriggerSetting} :
    t.change setting = .ok t' ↔
      (t.config.adjust setting).validate = .ok () ∧
        t.configured (t.config.adjust setting) = t' := by
  rw [change_eq h, Checked.seq_eq_ok, Checked.pure_eq_ok, Except.ok.injEq]

theorem change_eq_error (h : t.Gated) {setting : TriggerSetting} {e : ConfigError} :
    t.change setting = .error e ↔ (t.config.adjust setting).validate = .error e := by
  rw [change_eq h]
  cases (t.config.adjust setting).validate <;> simp

theorem stage_configured (t : Trigger) (c : TriggerConfig) : (t.configured c).stage = t.stage := by
  cases t <;> cases c <;> rfl

theorem config_configured (t : Trigger) (setting : TriggerSetting) :
    (t.configured (t.config.adjust setting)).config = t.config.adjust setting := by
  cases t <;> cases setting <;> rfl

/-- A setter that takes its setting replaces it in the settings. -/
theorem change_config {setting : TriggerSetting} (h : t.change setting = .ok t') :
    t'.config = t.config.adjust setting := by
  cases t <;> cases setting <;>
    first
    | (obtain rfl := Except.ok.inj h; rfl)
    | (obtain ⟨-, rfl⟩ := Checked.map_checked_eq_ok.mp h; rfl)

theorem call_told (h : t.Gated) {c : TriggerCall} {log : List LogEntry}
    (hcall : t.call c = .ok (t', log)) : t'.config = t.config.told c := by
  cases call_eq_ok.mp hcall with
  | evaluated heval _ => exact (evaluate_reported h.sound heval).1
  | changed hchange =>
    obtain ⟨hv, rfl⟩ := (change_eq_ok h).mp hchange
    rw [TriggerConfig.told, hv, config_configured]
    rfl
  | refused hchange =>
    rw [TriggerConfig.told, (change_eq_error h).mp hchange]
    rfl
  | reset => exact t.config_reset

theorem run_told (h : t.Gated) {calls : List TriggerCall} (hf : ∀ c ∈ calls, c.Fits) :
    ∃ last log, t.run calls = .ok (last, log) ∧ last.Gated ∧
      last.config = calls.foldl TriggerConfig.told t.config := by
  induction calls generalizing t with
  | nil => exact ⟨t, [], rfl, h, rfl⟩
  | cons c calls ih =>
    obtain ⟨hc, hcalls⟩ := List.forall_mem_cons.mp hf
    obtain ⟨t₁, entries, hcall, hlogged⟩ := call_logged h hc
    obtain ⟨last, later, hrun, hgated, hconfig⟩ := ih hlogged.gated hcalls
    refine ⟨last, entries ++ later, run_cons hcall hrun, hgated, ?_⟩
    rw [hconfig, call_told h hcall, List.foldl_cons]

/-- From accepted settings, whatever is called: the settings in force are accepted ones, those of
the start with every change that was taken; the gate waits for the interval that is set, and a reset
gives the trigger that is built from them. A setting is refused just when the settings would not be
accepted with it, and then nothing changes; otherwise nothing but the settings changes. -/
theorem settings_accepted {c : TriggerConfig} (hv : c.validate = .ok ()) (hf : c.Fits)
    {calls : List TriggerCall} (hcalls : ∀ call ∈ calls, call.Fits) :
    ∃ t t' log, c.build = .ok t ∧ t.run calls = .ok (t', log) ∧
      t'.config = calls.foldl TriggerConfig.told c ∧ t'.config.validate = .ok () ∧
      t'.gate.interval = t'.config.debounce ∧ t'.config.build = .ok t'.reset ∧
      ∀ setting,
        (∀ e, t'.change setting = .error e ↔ (t'.config.adjust setting).validate = .error e) ∧
        (∀ e, t'.change setting = .error e → t'.call (.set setting) = .ok (t', [])) ∧
        (∀ last, t'.change setting = .ok last →
          last = t'.configured (t'.config.adjust setting) ∧ last.stage = t'.stage ∧
            last.config = t'.config.adjust setting ∧ last.config.validate = .ok ()) := by
  obtain ⟨t', log, hrun, hgated, hconfig⟩ := run_told (atRest_gated hv hf) hcalls
  rw [c.config_atRest] at hconfig
  have haccepted := hgated.sound.accepted
  refine ⟨c.atRest, t', log, c.build_eq_ok hv, hrun, hconfig, haccepted, hgated.interval, ?_,
    fun setting => ⟨fun e => change_eq_error hgated,
      fun e hchange => call_eq_ok.mpr (.refused hchange), fun last hchange => ?_⟩⟩
  · rw [reset_eq hgated]
    exact TriggerConfig.build_eq_ok haccepted
  · obtain ⟨hadjusted, rfl⟩ := (change_eq_ok hgated).mp hchange
    rw [config_configured]
    exact ⟨rfl, stage_configured _ _, rfl, hadjusted⟩

end Trigger

/-- Settings that are taken and settings that are refused, while the pad is struck. -/
def struckPadChanges : List TriggerCall :=
  [.evaluate 50 10, .set (.thresholds 70 60), .set (.velocityBounds 2 1), .evaluate 90 40,
    .set (.debounce 5), .set (.thresholds 30 80), .set (.inputRange { outputMax := 70 }), .reset,
    .set (.releaseVelocity true)]

theorem struckPad_settings_accepted :
    struckPad.validate = .ok () ∧ struckPad.Fits ∧ (∀ call ∈ struckPadChanges, call.Fits) ∧
      ∃ t t' log, struckPad.build = .ok t ∧ t.run struckPadChanges = .ok (t', log) ∧
        t'.config.debounce = 5 ∧ t'.gate.interval = 5 ∧ t'.config.build = .ok t'.reset := by
  have hfits : ∀ call ∈ struckPadChanges, call.Fits := by
    unfold struckPadChanges
    simp [TriggerCall.Fits, TriggerSetting.Fits, InputRange.Fits]
  obtain ⟨t, t', log, hbuild, hrun, hconfig, -, hinterval, hreset, -⟩ :=
    Trigger.settings_accepted struckPad_accepted (by decide) hfits
  have hdebounce : t'.config.debounce = 5 := by
    rw [hconfig]
    decide +kernel
  exact ⟨struckPad_accepted, by decide, hfits, t, t', log, hbuild, hrun, hdebounce,
    hinterval.trans hdebounce, hreset⟩

end SensorEvents
