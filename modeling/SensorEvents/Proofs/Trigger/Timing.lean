import SensorEvents.Proofs.Trigger.Spacing

/-!
# Velocities are timed from their own press

The phase of a velocity trigger says since when it is timed, and the log of a run says when that
was. Both agree at every transition: the entry that started the clock is the last one of the log, so
that neither a discarded crossing nor an abandoned release comes into a velocity. The clock is also
that of the gate, so that what is measured is never below the interval.
-/
namespace SensorEvents

/-- The last entry of a log is a transition between two phases, at a time. -/
def EndsWith (log : List LogEntry) (before after : VelocityPhase) (time : Nat) : Prop :=
  ∃ earlier interval, log = earlier ++ [.applied ⟨.phase before, .phase after, time, interval⟩]

/-- A trigger that arms or releases does so since the last entry of the log, and since the last
transition that its gate knows. -/
def VelocityTrigger.Clocked (t : VelocityTrigger) (log : List LogEntry) : Prop :=
  ∀ since,
    (t.phase = .arming since →
      t.gate.lastChange = some since ∧ EndsWith log .idle (.arming since) since) ∧
    (t.phase = .releasing since →
      t.gate.lastChange = some since ∧ EndsWith log .active (.releasing since) since)

/-- An event has the velocity of the time that passed since the last entry of the log: an on since
its arming, an off since its release, if that is timed. -/
def Event.TimedBy (e : Event) (c : VelocityConfig) (log : List LogEntry) (now : Nat) : Prop :=
  ∃ since, c.debounce ≤ now - since ∧
    ((e.kind = .on ∧ EndsWith log .idle (.arming since) since ∧
        c.velocityFor (now - since) = .ok e.intensity) ∨
      (e.kind = .off ∧ EndsWith log .active (.releasing since) since ∧
        (if c.releaseVelocity then c.velocityFor (now - since) else .ok 0) = .ok e.intensity))

namespace VelocityTrigger

/-- The transitions of `settle`, each with the event that it reports. -/
def reportsFrom (value now : Nat) : Nat → VelocityTrigger → List (Passage × Option Event)
  | 0, _ => []
  | fuel + 1, t =>
    match t.step? value now with
    | .ok (some (t', e)) =>
      ({ before := .phase t.phase, after := .phase t'.phase, time := now,
         interval := t.config.debounce }, e) :: reportsFrom value now fuel t'
    | _ => []

/-- The transitions of an evaluation, each with the event that it reports. -/
def reports (t : VelocityTrigger) (value now : Nat) : Checked (List (Passage × Option Event)) := do
  let value ← t.config.input.apply value
  return t.reportsFrom value now cascade

/-- What the reports leave in a log. -/
def logged (reports : List (Passage × Option Event)) : List LogEntry :=
  reports.map fun r => .applied r.1

variable {t last : VelocityTrigger} {value now : Nat} {es : List Event} {log : List LogEntry}

theorem passages_eq (t : VelocityTrigger) (value now fuel : Nat) :
    t.passages value now fuel = (t.reportsFrom value now fuel).map Prod.fst := by
  induction fuel generalizing t with
  | zero => rfl
  | succ fuel ih =>
    unfold passages reportsFrom
    cases t.step? value now with
    | error _ => rfl
    | ok step =>
      cases step with
      | none => rfl
      | some step => exact congrArg (_ :: ·) (ih step.1)

theorem Move.report_eq {next : VelocityPhase} {e : Option Event} (h : t.Move value now next e) :
    t.report next now = .ok e := by
  unfold report
  cases h with
  | arm hphase _ => rw [hphase]
  | discard hphase _ => rw [hphase]
  | on hphase _ hvelocity => simp only [hphase, hvelocity, Checked.ok_bind, Checked.pure_eq_ok]
  | release hphase _ => rw [hphase]
  | abandon hphase _ => rw [hphase]
  | off hphase _ hvelocity =>
    simp only [hphase]
    split_ifs at hvelocity ⊢
    · simp only [hvelocity, Checked.ok_bind, Checked.pure_eq_ok]
    · rw [← Except.ok.inj hvelocity]

theorem Step.step?_eq {r : Option (VelocityTrigger × Option Event)} (h : t.Step value now r) :
    t.step? value now = .ok r := by
  unfold step?
  cases h with
  | rest hrest =>
    cases hnext : t.next? value now with
    | none => rfl
    | some next =>
      rcases hrest with hnone | hrefused
      · exact absurd (hnext.symm.trans hnone) (Option.some_ne_none next)
      · exact if_neg (ne_true_of_eq_false hrefused)
  | move hnext hready hmove =>
    simp only [hnext, hready, if_true, hmove.report_eq, Checked.ok_bind]
    rfl

/-- A trigger at rest has no clock that runs. -/
theorem Clocked.of_idle (h : t.phase = .idle) (log : List LogEntry) : t.Clocked log := by
  intro since
  rw [h]
  exact ⟨nofun, nofun⟩

theorem Clocked.atRest (c : VelocityConfig) :
    Clocked { config := c, gate := { interval := c.debounce } } [] :=
  .of_idle rfl []

/-- A transition starts the clock of the phase it leads to. -/
theorem Move.clocked {next : VelocityPhase} {e : Option Event} (h : t.Move value now next e)
    (log : List LogEntry) (interval : Nat) :
    (t.moved next now).Clocked
      (log ++ [.applied ⟨.phase t.phase, .phase next, now, interval⟩]) := by
  intro since
  cases h with
  | arm hphase _ =>
    rw [hphase]
    refine ⟨fun hnext => ?_, nofun⟩
    obtain rfl := VelocityPhase.arming.inj hnext
    exact ⟨rfl, log, interval, rfl⟩
  | release hphase _ =>
    rw [hphase]
    refine ⟨nofun, fun hnext => ?_⟩
    obtain rfl := VelocityPhase.releasing.inj hnext
    exact ⟨rfl, log, interval, rfl⟩
  | discard _ _ => exact ⟨nofun, nofun⟩
  | on _ _ _ => exact ⟨nofun, nofun⟩
  | abandon _ _ => exact ⟨nofun, nofun⟩
  | off _ _ _ => exact ⟨nofun, nofun⟩

/-- An event is timed from the entry that started the clock. -/
theorem Move.timedBy {next : VelocityPhase} {e : Event} (h : t.Move value now next (some e))
    (hv : t.config.validate = .ok ()) (hinterval : t.gate.interval = t.config.debounce)
    (hready : t.gate.ready now = true) (hclocked : t.Clocked log) :
    e.TimedBy t.config log now := by
  have hlossless : e.intensity = e.amount :=
    (h.reported hv).lossless e (List.mem_singleton_self e)
  have hmeasured {since : Nat} (hlast : t.gate.lastChange = some since) :
      t.config.debounce ≤ now - since := by
    have hpassed := Debounce.ready_iff.mp hready since hlast
    rw [hinterval] at hpassed
    omega
  cases h with
  | @on since velocity hphase hvalue hvelocity =>
    obtain ⟨hlast, hstart⟩ := (hclocked since).1 hphase
    refine ⟨since, hmeasured hlast, Or.inl ⟨rfl, hstart, ?_⟩⟩
    rw [hlossless]
    exact hvelocity
  | @off since velocity hphase hvalue hvelocity =>
    obtain ⟨hlast, hstart⟩ := (hclocked since).2 hphase
    refine ⟨since, hmeasured hlast, Or.inr ⟨rfl, hstart, ?_⟩⟩
    rw [hlossless]
    exact hvelocity

/-- What is reported along a way: the events, a clock that the log started, and for every event the
entry it is timed from. -/
structure Recorded (t : VelocityTrigger) (log : List LogEntry) (now : Nat)
    (reports : List (Passage × Option Event)) (es : List Event) (last : VelocityTrigger) :
    Prop where
  events : reports.filterMap Prod.snd = es
  clocked : last.Clocked (log ++ logged reports)
  timed : ∀ early p e late, reports = early ++ (p, some e) :: late →
    e.TimedBy t.config (log ++ logged early) now

theorem Cascade.recorded (h : Cascade value now t es last) (hv : t.config.validate = .ok ())
    (hinterval : t.gate.interval = t.config.debounce) (hclocked : t.Clocked log) {fuel : Nat}
    (hfuel : t.movesLeft value < fuel) :
    Recorded t log now (t.reportsFrom value now fuel) es last := by
  induction h generalizing fuel log with
  | rest hrest =>
    obtain ⟨fuel, rfl⟩ := Nat.exists_eq_succ_of_ne_zero (Nat.ne_zero_of_lt hfuel)
    unfold reportsFrom
    rw [hrest.step?_eq]
    refine ⟨rfl, ?_, ?_⟩
    · simpa [logged] using hclocked
    · intro early p e late hsplit
      exact absurd hsplit (by simp)
  | @move t last next e es hstep hlater ih =>
    obtain ⟨fuel, rfl⟩ := Nat.exists_eq_succ_of_ne_zero (Nat.ne_zero_of_lt hfuel)
    unfold reportsFrom
    rw [hstep.step?_eq]
    cases hstep with
    | move hnext hready hmove =>
      have hless : (t.moved next now).movesLeft value < fuel :=
        hmove.movesLeft_lt.trans_le (Nat.le_of_lt_succ hfuel)
      have hafter := hmove.clocked log t.config.debounce
      obtain ⟨hevents, hclocked', htimed⟩ := ih hv hinterval hafter hless
      refine ⟨?_, ?_, ?_⟩
      · cases e with
        | none => simpa using hevents
        | some e => simpa using hevents
      · simpa [logged] using hclocked'
      · intro early p e' late hsplit
        cases early with
        | nil =>
          obtain ⟨hfirst, -⟩ := List.cons.inj hsplit
          obtain ⟨-, rfl⟩ := Prod.mk.inj hfirst
          simpa [logged] using hmove.timedBy hv hinterval hready hclocked
        | cons first early =>
          obtain ⟨rfl, hrest⟩ := List.cons.inj hsplit
          simpa [logged] using htimed early p e' late hrest

/-- An evaluation records what it reports. -/
theorem evaluate_recorded (hv : t.config.validate = .ok ()) (hf : t.config.input.Fits)
    (hinterval : t.gate.interval = t.config.debounce) (hclocked : t.Clocked log) (value now : Nat) :
    ∃ last emitted reports, t.evaluate value now = .ok (last, emitted) ∧
      t.reports value now = .ok reports ∧
      (Trigger.velocity t).passages value now = .ok (reports.map Prod.fst) ∧
      Recorded t log now reports emitted.events last := by
  obtain ⟨v, last, emitted, happly, -, heval, hcascade⟩ := evaluate_eq hv hf value now
  have hroom : t.movesLeft v < cascade := lt_of_le_of_lt (t.movesLeft_le v) (by decide)
  refine ⟨last, emitted, t.reportsFrom v now cascade, heval, ?_, ?_,
    hcascade.recorded hv hinterval hclocked hroom⟩
  · unfold reports
    rw [happly]
    rfl
  · simp only [Trigger.passages, happly, Checked.ok_bind, t.passages_eq]
    rfl

end VelocityTrigger

namespace Trigger

variable {t : VelocityTrigger} {log : List LogEntry}

/-- A change of settings that was accepted leaves phase and clock of a velocity trigger alone. -/
theorem velocity_change {t' : Trigger} {setting : TriggerSetting}
    (h : (velocity t).change setting = .ok t') :
    ∃ last, t' = velocity last ∧ last.phase = t.phase ∧
      last.gate.lastChange = t.gate.lastChange := by
  cases setting with
  | thresholds minNote trigger =>
    obtain ⟨-, rfl⟩ := Checked.map_checked_eq_ok.mp h
    exact ⟨_, rfl, rfl, rfl⟩
  | inputRange input =>
    obtain ⟨-, rfl⟩ := Checked.map_checked_eq_ok.mp h
    exact ⟨_, rfl, rfl, rfl⟩
  | velocityBounds low high =>
    obtain ⟨-, rfl⟩ := Checked.map_checked_eq_ok.mp h
    exact ⟨_, rfl, rfl, rfl⟩
  | _ =>
    obtain rfl := Except.ok.inj h
    exact ⟨_, rfl, rfl, rfl⟩

/-- A call of a velocity trigger keeps its clock that of the log. -/
theorem call_clocked (h : (velocity t).Gated) (hclocked : t.Clocked log) {c : TriggerCall}
    (hf : c.Fits) :
    ∃ last entries, (velocity t).call c = .ok (velocity last, entries) ∧ (velocity last).Gated ∧
      last.Clocked (log ++ entries) := by
  obtain ⟨t', entries, hcall, hlogged⟩ := call_logged h hf
  suffices hlast : ∃ last, t' = velocity last ∧ last.Clocked (log ++ entries) by
    obtain ⟨last, rfl, hclocked'⟩ := hlast
    exact ⟨last, entries, hcall, hlogged.gated, hclocked'⟩
  cases call_eq_ok.mp hcall with
  | @evaluated value now _ _ _ heval hpassages =>
    obtain ⟨last, emitted, reports, heval', -, hpassages', hrecorded⟩ :=
      t.evaluate_recorded h.sound.accepted h.sound.fits h.interval hclocked value now
    obtain ⟨rfl, -⟩ := Checked.ok_unique_pair heval (evaluate_of_velocity heval')
    obtain rfl := Checked.ok_unique hpassages hpassages'
    refine ⟨last, rfl, ?_⟩
    rw [List.map_map]
    exact hrecorded.clocked
  | refused _ => exact ⟨t, rfl, (List.append_nil log).symm ▸ hclocked⟩
  | changed hchange =>
    obtain ⟨last, rfl, hphase, hgate⟩ := velocity_change hchange
    refine ⟨last, rfl, ?_⟩
    rw [List.append_nil]
    unfold VelocityTrigger.Clocked
    rw [hphase, hgate]
    exact hclocked
  | reset => exact ⟨t.reset, rfl, .of_idle rfl _⟩

theorem run_clocked (h : (velocity t).Gated) (hclocked : t.Clocked log)
    {calls : List TriggerCall} (hf : ∀ c ∈ calls, c.Fits) :
    ∃ last entries, (velocity t).run calls = .ok (velocity last, entries) ∧
      (velocity last).Gated ∧ last.Clocked (log ++ entries) := by
  induction calls generalizing t log with
  | nil => exact ⟨t, [], rfl, h, (List.append_nil log).symm ▸ hclocked⟩
  | cons c calls ih =>
    obtain ⟨hc, hcalls⟩ := List.forall_mem_cons.mp hf
    obtain ⟨t₁, entries, hcall, hgated, hclocked₁⟩ := call_clocked h hclocked hc
    obtain ⟨last, later, hrun, hgated', hclocked'⟩ := ih hgated hclocked₁ hcalls
    exact ⟨last, entries ++ later, run_cons hcall hrun, hgated',
      List.append_assoc log entries later ▸ hclocked'⟩

/-- From accepted settings, whatever is called and whenever: the clock of a phase that is timed was
started by the last transition of the log, which is also the last that the gate knows; and every
event of an evaluation carries the velocity of the time since the entry before its own, with the
settings in force, and that time is never below the interval. -/
theorem velocities_timed {c : VelocityConfig} (hv : c.validate = .ok ()) (hf : c.input.Fits)
    {calls : List TriggerCall} (hcalls : ∀ call ∈ calls, call.Fits) :
    ∃ t t' log, (TriggerConfig.velocity c).build = .ok t ∧ t.run calls = .ok (velocity t', log) ∧
      t'.Clocked log ∧
      ∀ value now, ∃ last emitted reports, t'.evaluate value now = .ok (last, emitted) ∧
        t'.reports value now = .ok reports ∧
        (velocity t').passages value now = .ok (reports.map Prod.fst) ∧
        emitted.events = reports.filterMap Prod.snd ∧
        ∀ early p e late, reports = early ++ (p, some e) :: late →
          e.TimedBy t'.config (log ++ VelocityTrigger.logged early) now := by
  have hrest : (TriggerConfig.velocity c).atRest.Gated := atRest_gated hv hf
  obtain ⟨t', log, hrun, hgated, hclocked⟩ := run_clocked hrest (.atRest c) hcalls
  refine ⟨_, t', log, TriggerConfig.build_eq_ok hv, hrun, hclocked, ?_⟩
  intro value now
  obtain ⟨last, emitted, reports, heval, hreports, hpassages, hrecorded⟩ :=
    t'.evaluate_recorded hgated.sound.accepted hgated.sound.fits hgated.interval hclocked value now
  exact ⟨last, emitted, reports, heval, hreports, hpassages, hrecorded.events.symm,
    hrecorded.timed⟩

end Trigger

/-- A pad that times the release as well. -/
def releasedPad : VelocityConfig where
  minNote := 40
  trigger := 60
  velocity := { minPhysical := 0.5, maxPhysical := 2 }
  releaseVelocity := true

/-- A crossing that is discarded, and a new one halfway. -/
def releasedPadCalls : List TriggerCall := [.evaluate 45 0, .evaluate 10 5, .evaluate 50 100]

theorem releasedPad_accepted : releasedPad.validate = .ok () :=
  Checked.eq_ok_of_isOk (by decide +kernel)

/-- The discarded crossing does not count: the on at 112 has the velocity of 12 milliseconds. -/
theorem releasedPad_timed :
    releasedPad.validate = .ok () ∧ releasedPad.input.Fits ∧
      (∀ call ∈ releasedPadCalls, call.Fits) ∧
      ∃ t t' log, (TriggerConfig.velocity releasedPad).build = .ok t ∧
        t.run releasedPadCalls = .ok (.velocity t', log) ∧ t'.Clocked log ∧
        ∃ last emitted, t'.evaluate 70 112 = .ok (last, emitted) ∧ emitted.events = [.on 99] ∧
          (Event.on 99).TimedBy releasedPad log 112 := by
  have hfits : ∀ call ∈ releasedPadCalls, call.Fits := by
    unfold releasedPadCalls
    simp [TriggerCall.Fits]
  obtain ⟨t, t', log, hbuild, hrun, hclocked, heach⟩ :=
    Trigger.velocities_timed releasedPad_accepted (by decide) hfits
  obtain rfl := Checked.ok_unique hbuild (TriggerConfig.build_eq_ok releasedPad_accepted)
  have harmed : (TriggerConfig.velocity releasedPad).atRest.run releasedPadCalls =
      .ok (.velocity ⟨releasedPad, .arming 100, ⟨2, some 100⟩⟩, _) := rfl
  obtain ⟨hsame, -⟩ := Checked.ok_unique_pair hrun harmed
  obtain rfl := Trigger.velocity.inj hsame
  obtain ⟨last, emitted, reports, heval, hreports, -, hevents, htimed⟩ := heach 70 112
  have hon : (VelocityTrigger.reports ⟨releasedPad, .arming 100, ⟨2, some 100⟩⟩ 70 112).toOption.map
      (List.map Prod.snd) = some [some (.on 99)] := by decide +kernel
  rw [hreports] at hon
  obtain ⟨⟨p, e⟩, rfl, rfl⟩ := List.map_eq_singleton_iff.mp (Option.some.inj hon)
  have hpress := htimed [] p (.on 99) [] rfl
  rw [VelocityTrigger.logged, List.map_nil, List.append_nil] at hpress
  exact ⟨releasedPad_accepted, by decide, hfits, _, _, log, hbuild, hrun, hclocked, last, emitted,
    heval, hevents, hpress⟩

end SensorEvents
