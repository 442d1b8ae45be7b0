import SensorEvents.Proofs.Scaling.Domain
import SensorEvents.Proofs.Scaling.Velocity
import SensorEvents.Proofs.Trigger.Following
import SensorEvents.Trigger.VelocityTrigger

/-!
# Evaluations of the velocity trigger

`Move` lists the six transitions and what each reports, `step?_eq` says that a step makes one of
them unless there is none or the debounce refuses it, and `Cascade` is what a whole evaluation
does. A value leaves room for two transitions at most, which is what bounds an evaluation.
-/
namespace SensorEvents.VelocityTrigger

/-- The trigger after a transition. -/
def moved (t : VelocityTrigger) (next : VelocityPhase) (now : Nat) : VelocityTrigger :=
  { t with phase := next, gate := t.gate.mark now }

variable {t : VelocityTrigger} {value now : Nat}

@[simp] theorem moved_config (next : VelocityPhase) : (t.moved next now).config = t.config := rfl

@[simp] theorem moved_phase (next : VelocityPhase) : (t.moved next now).phase = next := rfl

@[simp] theorem moved_gate (next : VelocityPhase) :
    (t.moved next now).gate = t.gate.mark now := rfl

/-- A transition of the note cycle that a value asks for, and the event it reports. -/
inductive Move (t : VelocityTrigger) (value now : Nat) : VelocityPhase → Option Event → Prop
  | arm (hphase : t.phase = .idle) (hvalue : t.config.minNote ≤ value) :
      Move t value now (.arming now) none
  | discard {since : Nat} (hphase : t.phase = .arming since) (hvalue : value < t.config.minNote) :
      Move t value now .idle none
  | on {since velocity : Nat} (hphase : t.phase = .arming since)
      (hvalue : t.config.trigger ≤ value)
      (hvelocity : t.config.velocityFor (now - since) = .ok velocity) :
      Move t value now .active (some (.on velocity))
  | release (hphase : t.phase = .active) (hvalue : value < t.config.trigger) :
      Move t value now (.releasing now) none
  | abandon {since : Nat} (hphase : t.phase = .releasing since)
      (hvalue : t.config.trigger ≤ value) : Move t value now .active none
  | off {since velocity : Nat} (hphase : t.phase = .releasing since)
      (hvalue : value < t.config.minNote)
      (hvelocity : (if t.config.releaseVelocity then t.config.velocityFor (now - since)
        else .ok 0) = .ok velocity) :
      Move t value now .idle (some (.off velocity))

/-- What a phase that is asked for reports can be computed, and is that of a transition. -/
theorem report_eq_ok (hv : t.config.validate = .ok ()) {next : VelocityPhase}
    (h : t.next? value now = some next) :
    ∃ e, t.report next now = .ok e ∧ t.Move value now next e := by
  unfold next? at h
  unfold report
  cases hphase : t.phase with
  | idle =>
    simp only [hphase, Option.ite_none_right_eq_some, Option.some.injEq] at h
    obtain ⟨hvalue, rfl⟩ := h
    exact ⟨_, rfl, .arm hphase hvalue⟩
  | arming since =>
    simp only [hphase] at h
    split_ifs at h with hlow hhigh
    · obtain rfl := Option.some.inj h
      exact ⟨_, rfl, .discard hphase hlow⟩
    · obtain rfl := Option.some.inj h
      obtain ⟨velocity, hvelocity, -⟩ := VelocityConfig.velocityFor_eq_ok hv (now - since)
      simp only [hvelocity, Checked.ok_bind]
      exact ⟨_, rfl, .on hphase hhigh hvelocity⟩
  | active =>
    simp only [hphase, Option.ite_none_right_eq_some, Option.some.injEq] at h
    obtain ⟨hvalue, rfl⟩ := h
    exact ⟨_, rfl, .release hphase hvalue⟩
  | releasing since =>
    simp only [hphase] at h
    split_ifs at h with hhigh hlow
    · obtain rfl := Option.some.inj h
      exact ⟨_, rfl, .abandon hphase hhigh⟩
    · obtain rfl := Option.some.inj h
      obtain ⟨velocity, hvelocity, -⟩ := VelocityConfig.velocityFor_eq_ok hv (now - since)
      simp only [hvelocity, Checked.ok_bind]
      split_ifs with htimed
      · exact ⟨_, rfl, .off hphase hlow (by rw [if_pos htimed, hvelocity])⟩
      · exact ⟨_, rfl, .off hphase hlow (by rw [if_neg htimed])⟩

/-- What one step does: nothing, or a transition that the debounce allows. -/
inductive Step (t : VelocityTrigger) (value now : Nat) :
    Option (VelocityTrigger × Option Event) → Prop
  | rest (h : t.next? value now = none ∨ t.gate.ready now = false) : Step t value now none
  | move {next : VelocityPhase} {e : Option Event} (hnext : t.next? value now = some next)
      (hready : t.gate.ready now = true) (hmove : t.Move value now next e) :
      Step t value now (some (t.moved next now, e))

theorem step?_eq (hv : t.config.validate = .ok ()) (value now : Nat) :
    ∃ r, t.step? value now = .ok r ∧ t.Step value now r := by
  unfold step?
  cases hnext : t.next? value now with
  | none => exact ⟨none, rfl, .rest (Or.inl hnext)⟩
  | some next =>
    cases hready : t.gate.ready now with
    | false => exact ⟨none, rfl, .rest (Or.inr hready)⟩
    | true =>
      obtain ⟨e, hreport, hmove⟩ := report_eq_ok hv hnext
      simp only [if_true, hreport, Checked.ok_bind]
      exact ⟨_, rfl, .move hnext hready hmove⟩

theorem velocity_between (hv : t.config.validate = .ok ()) {elapsed velocity : Nat}
    (h : t.config.velocityFor elapsed = .ok velocity) :
    t.config.velocity.minOutput ≤ velocity ∧ velocity ≤ t.config.velocity.maxOutput := by
  obtain ⟨v, hvelocity, hbetween⟩ := VelocityConfig.velocityFor_eq_ok hv elapsed
  obtain rfl := Checked.ok_unique h hvelocity
  exact hbetween

theorem velocity_le (hv : t.config.validate = .ok ()) {elapsed velocity : Nat}
    (h : t.config.velocityFor elapsed = .ok velocity) : velocity ≤ 127 := by
  obtain ⟨-, hmap, -⟩ := VelocityConfig.validate_eq_ok.mp hv
  obtain ⟨-, -, hmax⟩ := VelocityMap.validate_eq_ok.mp hmap
  exact (velocity_between hv h).2.trans hmax

theorem Move.phase_ne {next : VelocityPhase} {e : Option Event} (h : t.Move value now next e) :
    next ≠ t.phase := by
  cases h with
  | arm hphase _ => rw [hphase]; nofun
  | discard hphase _ => rw [hphase]; nofun
  | on hphase _ _ => rw [hphase]; nofun
  | release hphase _ => rw [hphase]; nofun
  | abandon hphase _ => rw [hphase]; nofun
  | off hphase _ _ => rw [hphase]; nofun

/-- A transition turns the gate the way it reports. -/
theorem Move.reported (hv : t.config.validate = .ok ()) {next : VelocityPhase} {e : Option Event}
    (h : t.Move value now next e) : Reported t.isOn (t.moved next now).isOn e.toList := by
  unfold isOn
  cases h with
  | arm hphase _ => rw [hphase]; exact .nil false
  | discard hphase _ => rw [hphase]; exact .nil false
  | on hphase _ hvelocity =>
    have hle := velocity_le hv hvelocity
    rw [hphase]
    exact .singleton rfl (lt_of_le_of_lt hle (by decide))
  | release hphase _ => rw [hphase]; exact .nil true
  | abandon hphase _ => rw [hphase]; exact .nil true
  | @off _ velocity hphase _ hvelocity =>
    have hle : velocity ≤ 127 := by
      split_ifs at hvelocity
      · exact velocity_le hv hvelocity
      · exact Except.ok.inj hvelocity ▸ Nat.zero_le _
    rw [hphase]
    exact .singleton rfl (lt_of_le_of_lt hle (by decide))

/-- How many transitions a value leaves room for. -/
def movesLeft (t : VelocityTrigger) (value : Nat) : Nat :=
  match t.phase with
  | .idle => if t.config.minNote ≤ value then 2 else 0
  | .arming _ => 1
  | .active => if value < t.config.trigger then 2 else 0
  | .releasing _ => 1

theorem movesLeft_le (t : VelocityTrigger) (value : Nat) : t.movesLeft value ≤ 2 := by
  unfold movesLeft
  split <;> try split_ifs
  all_goals omega

/-- A transition uses up some of the room. -/
theorem Move.movesLeft_lt {next : VelocityPhase} {e : Option Event} (h : t.Move value now next e) :
    (t.moved next now).movesLeft value < t.movesLeft value := by
  unfold movesLeft
  cases h with
  | arm hphase hvalue => simp [hphase, hvalue]
  | discard hphase hvalue => simp [hphase, Nat.not_le.mpr hvalue]
  | on hphase hvalue _ => simp [hphase, Nat.not_lt.mpr hvalue]
  | release hphase hvalue => simp [hphase, hvalue]
  | abandon hphase hvalue => simp [hphase, Nat.not_lt.mpr hvalue]
  | off hphase hvalue _ => simp [hphase, Nat.not_le.mpr hvalue]

/-- Transitions one after the other until a step makes none: the trigger at the end and the events
that are reported. -/
inductive Cascade (value now : Nat) : VelocityTrigger → List Event → VelocityTrigger → Prop
  | rest {t : VelocityTrigger} (h : t.Step value now none) : Cascade value now t [] t
  | move {t last : VelocityTrigger} {next : VelocityPhase} {e : Option Event} {es : List Event}
      (hstep : t.Step value now (some (t.moved next now, e)))
      (hlater : Cascade value now (t.moved next now) es last) :
      Cascade value now t (e.toList ++ es) last

/-- With enough fuel, and room for the events, the loop makes every transition there is. -/
theorem settle_eq (value now : Nat) :
    ∀ (fuel : Nat) (t : VelocityTrigger) (emitted : Emitted), t.config.validate = .ok () →
      t.movesLeft value < fuel → emitted.size + t.movesLeft value ≤ 2 →
      ∃ last emitted' es, settle value now fuel t emitted = .ok (last, emitted') ∧
        Cascade value now t es last ∧ emitted'.events = emitted.events ++ es := by
  intro fuel
  induction fuel with
  | zero => exact fun _ _ _ hfuel => absurd hfuel (Nat.not_lt_zero _)
  | succ fuel ih =>
    intro t emitted hv hfuel hroom
    obtain ⟨r, hstep, hdone⟩ := step?_eq hv value now
    unfold settle
    cases hdone with
    | rest hrest =>
      simp only [hstep, Checked.ok_bind]
      exact ⟨t, emitted, [], rfl, .rest (.rest hrest), by simp⟩
    | @move next e hnext hready hmove =>
      simp only [hstep, Checked.ok_bind]
      have hless := hmove.movesLeft_lt
      cases e with
      | none =>
        obtain ⟨last, emitted', es, hsettle, hcascade, hevents⟩ :=
          ih (t.moved next now) emitted hv (by omega) (by omega)
        exact ⟨last, emitted', es, hsettle, .move (.move hnext hready hmove) hcascade, hevents⟩
      | some e =>
        have hpush := Emitted.events_push (show emitted.size < 2 by omega) e
        have hsize : (emitted.push e).size = emitted.size + 1 := by
          simp [Emitted.size, hpush]
        obtain ⟨last, emitted', es, hsettle, hcascade, hevents⟩ :=
          ih (t.moved next now) (emitted.push e) hv (by omega) (by omega)
        refine ⟨last, emitted', e :: es, hsettle, .move (.move hnext hready hmove) hcascade, ?_⟩
        rw [hevents, hpush, List.append_assoc]
        rfl

/-- An evaluation is a whole cascade at the preprocessed value. -/
theorem evaluate_eq (hv : t.config.validate = .ok ()) (hf : t.config.input.Fits)
    (value now : Nat) :
    ∃ v last emitted, t.config.input.apply value = .ok v ∧ v ≤ t.config.input.outputMax ∧
      t.evaluate value now = .ok (last, emitted) ∧ Cascade v now t emitted.events last := by
  obtain ⟨hinput, -⟩ := VelocityConfig.validate_eq_ok.mp hv
  obtain ⟨v, happly, hle⟩ := InputRange.apply_eq_ok hinput hf value
  have hmoves := t.movesLeft_le v
  obtain ⟨last, emitted, es, hsettle, hcascade, hevents⟩ :=
    settle_eq v now cascade t .none hv (by unfold cascade; omega) (by simpa [Emitted.size])
  refine ⟨v, last, emitted, happly, hle, ?_, ?_⟩
  · unfold evaluate
    rw [happly, Checked.ok_bind, hsettle]
  · simpa [hevents] using hcascade

namespace Cascade

variable {last : VelocityTrigger} {es : List Event}

theorem config_eq (h : Cascade value now t es last) : last.config = t.config := by
  induction h with
  | rest _ => rfl
  | move _ _ ih => exact ih

theorem reported (h : Cascade value now t es last) (hv : t.config.validate = .ok ()) :
    Reported t.isOn last.isOn es := by
  induction h with
  | rest _ => exact .nil _
  | move hstep _ ih =>
    cases hstep with
    | move _ _ hmove => exact (hmove.reported hv).append (ih hv)

/-- At the end no transition is left that the debounce would allow. -/
theorem settled (h : Cascade value now t es last) : last.Step value now none := by
  induction h with
  | rest h => exact h
  | move _ _ ih => exact ih

end Cascade

end SensorEvents.VelocityTrigger
