import SensorEvents.Proofs.Trigger.Spacing

/-!
# Triggers in shifted time

A trigger keeps two kinds of times, that of the last transition and since when a crossing is timed,
and uses either only in a difference to the present. So a trigger whose times are later by some
amount, told everything later by as much, answers as before and is again the same trigger with later
times. A new trigger keeps no time at all.
-/
namespace SensorEvents

theorem Checked.map_map_seq {ε α β γ : Type} (x : Except ε Unit) (f : α → γ) (f' : β → γ)
    (g : γ → γ) (a : α) (b : β) (h : f' b = g (f a)) :
    f' <$> (x >>= fun _ => pure b) = g <$> f <$> (x >>= fun _ => pure a) := by
  cases x with
  | ok _ => exact congrArg Except.ok h
  | error _ => rfl

namespace Debounce

/-- The same gate in a time that runs ahead. -/
def later (d : Nat) (g : Debounce) : Debounce :=
  { g with lastChange := g.lastChange.map (· + d) }

variable (d : Nat) (g : Debounce) (now : Nat)

theorem ready_later : (g.later d).ready (now + d) = g.ready now := by
  unfold ready later
  cases g.lastChange with
  | none => rfl
  | some last => simp only [Option.map_some, Nat.add_sub_add_right]

end Debounce

/-- The same phase in a time that runs ahead. -/
def VelocityPhase.later (d : Nat) : VelocityPhase → VelocityPhase
  | idle => idle
  | arming since => arming (since + d)
  | active => active
  | releasing since => releasing (since + d)

namespace VelocityTrigger

def later (d : Nat) (t : VelocityTrigger) : VelocityTrigger :=
  { t with phase := t.phase.later d, gate := t.gate.later d }

variable (d : Nat) (t : VelocityTrigger) (value now : Nat)

theorem gate_later : (t.later d).gate = t.gate.later d := rfl

theorem next?_later :
    (t.later d).next? value (now + d) = (t.next? value now).map (VelocityPhase.later d) := by
  unfold next? later
  cases t.phase with
  | idle => simp only [VelocityPhase.later]; split_ifs <;> rfl
  | arming since => simp only [VelocityPhase.later]; split_ifs <;> rfl
  | active => simp only [VelocityPhase.later]; split_ifs <;> rfl
  | releasing since => simp only [VelocityPhase.later]; split_ifs <;> rfl

theorem report_later (next : VelocityPhase) :
    (t.later d).report (next.later d) (now + d) = t.report next now := by
  unfold report later
  cases t.phase <;> cases next <;>
    simp only [VelocityPhase.later, Nat.add_sub_add_right]

theorem step?_later :
    (t.later d).step? value (now + d) =
      Option.map (fun r => (r.1.later d, r.2)) <$> t.step? value now := by
  unfold step?
  rw [next?_later]
  cases t.next? value now with
  | none => rfl
  | some next =>
    simp only [Option.map_some]
    rw [report_later, gate_later, Debounce.ready_later]
    split_ifs
    · cases t.report next now <;> rfl
    · rfl

theorem settle_later (fuel : Nat) (emitted : Emitted) :
    settle value (now + d) fuel (t.later d) emitted =
      (fun r => (r.1.later d, r.2)) <$> settle value now fuel t emitted := by
  induction fuel generalizing t emitted with
  | zero => rfl
  | succ fuel ih =>
    unfold settle
    rw [step?_later]
    cases t.step? value now with
    | error _ => rfl
    | ok step =>
      cases step with
      | none => rfl
      | some step => exact ih _ _

theorem evaluate_later :
    (t.later d).evaluate value (now + d) =
      (fun r => (r.1.later d, r.2)) <$> t.evaluate value now := by
  unfold evaluate
  change (t.config.input.apply value >>= fun v => settle v (now + d) cascade (t.later d) .none) = _
  cases t.config.input.apply value with
  | error _ => rfl
  | ok v => exact settle_later d t v now cascade .none

end VelocityTrigger

namespace ThresholdTrigger

def later (d : Nat) (t : ThresholdTrigger) : ThresholdTrigger := { t with gate := t.gate.later d }

theorem evaluate_later (d : Nat) (t : ThresholdTrigger) (value now : Nat) :
    (t.later d).evaluate value (now + d) =
      (fun r => (r.1.later d, r.2)) <$> t.evaluate value now := by
  unfold evaluate
  simp only [later, Debounce.ready_later]
  cases t.config.input.apply value with
  | error _ => rfl
  | ok v =>
    simp only [Checked.ok_bind]
    change (t.wantsOn v >>= _) = _ <$> (t.wantsOn v >>= _)
    cases t.wantsOn v with
    | error _ => rfl
    | ok on =>
      simp only [Checked.ok_bind]
      split_ifs <;> rfl

end ThresholdTrigger

namespace PressureTrigger

def later (d : Nat) (t : PressureTrigger) : PressureTrigger := { t with gate := t.gate.later d }

variable (d : Nat) (t : PressureTrigger) (value now : Nat)

theorem changeNote?_later :
    (t.later d).changeNote? value (now + d) =
      (t.changeNote? value now).map fun r => (r.1.later d, r.2) := by
  unfold changeNote? later
  simp only [Debounce.ready_later]
  split_ifs <;> rfl

theorem changePressure_later (emitted : Emitted) :
    (t.later d).changePressure value emitted =
      ((t.changePressure value emitted).1.later d, (t.changePressure value emitted).2) := by
  unfold changePressure later
  split_ifs <;> rfl

theorem evaluate_later :
    (t.later d).evaluate value (now + d) =
      (fun r => (r.1.later d, r.2)) <$> t.evaluate value now := by
  unfold evaluate
  change (t.config.input.apply value >>= _) = _
  cases t.config.input.apply value with
  | error _ => rfl
  | ok v =>
    simp only [Checked.ok_bind, changeNote?_later]
    cases t.changeNote? v now with
    | none => rfl
    | some r => exact congrArg Except.ok (changePressure_later d r.1 v r.2)

end PressureTrigger

namespace Trigger

/-- The same trigger in a time that runs ahead. A continuous trigger keeps no time. -/
def later (d : Nat) : Trigger → Trigger
  | velocity t => velocity (t.later d)
  | threshold t => threshold (t.later d)
  | pressure t => pressure (t.later d)
  | continuous t => continuous t

variable (d : Nat) (t : Trigger)

theorem isOn_later : (t.later d).isOn = t.isOn := by
  cases t with
  | velocity t => obtain ⟨config, phase, gate⟩ := t; cases phase <;> rfl
  | _ => rfl

theorem reset_later : (t.later d).reset = t.reset.later d := by
  cases t <;> rfl

theorem evaluate_later (value now : Nat) :
    (t.later d).evaluate value (now + d) =
      (fun r => (r.1.later d, r.2)) <$> t.evaluate value now := by
  cases t with
  | velocity t =>
    simp only [evaluate, later, t.evaluate_later]
    cases t.evaluate value now <;> rfl
  | threshold t =>
    simp only [evaluate, later, t.evaluate_later]
    cases t.evaluate value now <;> rfl
  | pressure t =>
    simp only [evaluate, later, t.evaluate_later]
    cases t.evaluate value now <;> rfl
  | continuous t =>
    simp only [evaluate, later]
    cases t.evaluate value <;> rfl

theorem change_later (setting : TriggerSetting) :
    (t.later d).change setting = later d <$> t.change setting := by
  cases t with
  | velocity t =>
    cases setting with
    | thresholds _ _ => exact Checked.map_map_seq _ _ _ _ _ _ rfl
    | inputRange _ => exact Checked.map_map_seq _ _ _ _ _ _ rfl
    | velocityBounds _ _ => exact Checked.map_map_seq _ _ _ _ _ _ rfl
    | _ => rfl
  | threshold t =>
    cases setting with
    | threshold _ _ => exact Checked.map_map_seq _ _ _ _ _ _ rfl
    | _ => rfl
  | pressure t =>
    cases setting with
    | thresholds _ _ => exact Checked.map_map_seq _ _ _ _ _ _ rfl
    | _ => rfl
  | continuous t => cases setting <;> rfl

end Trigger

/-- A trigger that keeps no time yet. -/
theorem TriggerConfig.later_atRest (d : Nat) (c : TriggerConfig) : c.atRest.later d = c.atRest := by
  cases c <;> rfl

/-- The same call, made later. -/
def TriggerCall.later (d : Nat) : TriggerCall → TriggerCall
  | evaluate value now => evaluate value (now + d)
  | set setting => set setting
  | reset => reset

/-- What comes of a call: the events of an evaluation, the refusal of a setting, and the trigger
after it. -/
structure TriggerTurn where
  events : List Event := []
  refused? : Option ConfigError := none
  after : Trigger

def TriggerTurn.later (d : Nat) (turn : TriggerTurn) : TriggerTurn :=
  { turn with after := turn.after.later d }

namespace Trigger

def turn (t : Trigger) : TriggerCall → Checked TriggerTurn
  | .evaluate value now => do
    let answer ← t.evaluate value now
    return { events := answer.2.events, after := answer.1 }
  | .set setting =>
    match t.change setting with
    | .ok last => .ok { after := last }
    | .error e => .ok { refused? := some e, after := t }
  | .reset => .ok { after := t.reset }

/-- What comes of calls made one after the other. -/
def turns (t : Trigger) : List TriggerCall → Checked (List TriggerTurn)
  | [] => .ok []
  | call :: calls => do
    let turn ← t.turn call
    let later ← turn.after.turns calls
    return turn :: later

theorem turn_later (d : Nat) (t : Trigger) (c : TriggerCall) :
    (t.later d).turn (c.later d) = TriggerTurn.later d <$> t.turn c := by
  cases c with
  | evaluate value now =>
    simp only [turn, TriggerCall.later, evaluate_later]
    cases t.evaluate value now <;> rfl
  | set setting =>
    simp only [turn, TriggerCall.later, change_later]
    cases t.change setting <;> rfl
  | reset =>
    simp only [turn, TriggerCall.later, reset_later]
    rfl

theorem turns_later (d : Nat) (t : Trigger) (calls : List TriggerCall) :
    (t.later d).turns (calls.map (TriggerCall.later d)) =
      List.map (TriggerTurn.later d) <$> t.turns calls := by
  induction calls generalizing t with
  | nil => rfl
  | cons c calls ih =>
    simp only [List.map_cons, turns, turn_later]
    cases t.turn c with
    | error _ => rfl
    | ok turn =>
      simp only [Checked.map_ok, Checked.ok_bind, TriggerTurn.later, ih]
      cases turn.after.turns calls <;> rfl

theorem turn_of_evaluate {t last : Trigger} {value now : Nat} {emitted : Emitted}
    (h : t.evaluate value now = .ok (last, emitted)) :
    t.turn (.evaluate value now) = .ok { events := emitted.events, after := last } := by
  simp only [turn, h, Checked.ok_bind]
  rfl

theorem turn_of_change {t last : Trigger} {setting : TriggerSetting}
    (h : t.change setting = .ok last) : t.turn (.set setting) = .ok { after := last } := by
  simp only [turn, h]

theorem turn_of_refused {t : Trigger} {setting : TriggerSetting} {e : ConfigError}
    (h : t.change setting = .error e) :
    t.turn (.set setting) = .ok { refused? := some e, after := t } := by
  simp only [turn, h]

/-- The turns of calls are those of the run of them. -/
theorem exists_turn {t last : Trigger} {c : TriggerCall} {log : List LogEntry}
    (hcall : t.call c = .ok (last, log)) : ∃ turn, t.turn c = .ok turn ∧ turn.after = last := by
  cases call_eq_ok.mp hcall with
  | evaluated heval _ => exact ⟨_, turn_of_evaluate heval, rfl⟩
  | changed hchange => exact ⟨_, turn_of_change hchange, rfl⟩
  | refused hchange => exact ⟨_, turn_of_refused hchange, rfl⟩
  | reset => exact ⟨_, rfl, rfl⟩

theorem turn_gated {t : Trigger} (h : t.Gated) {c : TriggerCall} (hf : c.Fits) {turn : TriggerTurn}
    (hturn : t.turn c = .ok turn) : turn.after.Gated := by
  obtain ⟨last, log, hcall, hlogged⟩ := call_logged h hf
  obtain ⟨turn', hturn', rfl⟩ := exists_turn hcall
  obtain rfl := Checked.ok_unique hturn hturn'
  exact hlogged.gated

theorem exists_turns {t : Trigger} (h : t.Gated) {calls : List TriggerCall}
    (hf : ∀ c ∈ calls, c.Fits) : ∃ turns, t.turns calls = .ok turns := by
  induction calls generalizing t with
  | nil => exact ⟨[], rfl⟩
  | cons c calls ih =>
    obtain ⟨hc, hcalls⟩ := List.forall_mem_cons.mp hf
    obtain ⟨last, log, hcall, hlogged⟩ := call_logged h hc
    obtain ⟨turn, hturn, rfl⟩ := exists_turn hcall
    obtain ⟨later, hlater⟩ := ih hlogged.gated hcalls
    exact ⟨turn :: later, by simp only [turns, hturn, hlater, Checked.ok_bind]; rfl⟩

/-- From accepted settings, whatever is called and whenever: the same calls made later by some
amount have the same results one by one, with the same events and the same refusals, and leave the
same trigger in a time that runs ahead. -/
theorem turns_of_shifted {c : TriggerConfig} (hv : c.validate = .ok ()) (hf : c.Fits)
    {calls : List TriggerCall} (hcalls : ∀ call ∈ calls, call.Fits) (d : Nat) :
    ∃ t turns, c.build = .ok t ∧ t.turns calls = .ok turns ∧
      t.turns (calls.map (TriggerCall.later d)) = .ok (turns.map (TriggerTurn.later d)) ∧
      ∀ turn ∈ turns, (turn.later d).events = turn.events ∧
        (turn.later d).refused? = turn.refused? ∧ (turn.later d).after.isOn = turn.after.isOn := by
  obtain ⟨turns, hturns⟩ := exists_turns (atRest_gated hv hf) hcalls
  refine ⟨c.atRest, turns, c.build_eq_ok hv, hturns, ?_,
    fun turn _ => ⟨rfl, rfl, turn.after.isOn_later d⟩⟩
  have hlater := turns_later d c.atRest calls
  rwa [c.later_atRest, hturns] at hlater

end Trigger

theorem struckPad_shifted :
    struckPad.validate = .ok () ∧ struckPad.Fits ∧ (∀ call ∈ struckPadCalls, call.Fits) ∧
      ∃ t turns, struckPad.build = .ok t ∧ t.turns struckPadCalls = .ok turns ∧
        t.turns (struckPadCalls.map (TriggerCall.later 1000)) =
          .ok (turns.map (TriggerTurn.later 1000)) := by
  have hfits : ∀ call ∈ struckPadCalls, call.Fits := by
    unfold struckPadCalls
    simp [TriggerCall.Fits, TriggerSetting.Fits]
  obtain ⟨t, turns, hbuild, hturns, hlater, -⟩ :=
    Trigger.turns_of_shifted struckPad_accepted (by decide) hfits 1000
  exact ⟨struckPad_accepted, by decide, hfits, t, turns, hbuild, hturns, hlater⟩

end SensorEvents
