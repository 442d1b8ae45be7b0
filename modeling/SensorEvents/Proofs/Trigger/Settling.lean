import SensorEvents.Proofs.Trigger.Settings

/-!
# Triggers settle

A transition that the debounce holds back stays asked for. Held at one value, a trigger therefore
comes to where that value stands: with the first evaluation that its gate is ready for, and where
two transitions are needed with a second one an interval later. On the way it reports the turn of
its gate, once.
-/
namespace SensorEvents

/-- The ons and offs that are owed for a gate that is found in two positions. -/
def owedSwitches (before after : Bool) : List EventKind :=
  if after = before then [] else [if after then .on else .off]

/-- Events of one kind, besides updates, turn a gate at most once. -/
theorem switches_of_kind {before after : Bool} {events : List Event} {kind : EventKind}
    (h : gateAfter? before events = some after)
    (hkind : ∀ e ∈ events, e.kind = .update ∨ e.kind = kind) :
    switches events = owedSwitches before after := by
  induction events generalizing before with
  | nil =>
    obtain rfl := Option.some.inj h
    exact (if_pos rfl).symm
  | cons e events ih =>
    obtain ⟨hfirst, hrest⟩ := List.forall_mem_cons.mp hkind
    unfold gateAfter? at h
    obtain ⟨next, hturn, hlater⟩ := Option.bind_eq_some_iff.mp h
    have hlaterSwitches := ih hlater hrest
    rcases EventKind.turn?_cases hturn with ⟨hupdate, rfl⟩ | ⟨hswitch, rfl⟩
    · rw [← hlaterSwitches]
      simp [switches, hupdate]
    · have hcons : switches (e :: events) = e.kind :: switches events := by
        cases before <;> simp [switches, hswitch]
      -- a second turn would be of the other kind
      have hend : after = !before := by
        by_contra hback
        have hsecond : owedSwitches (!before) after = [if before then .on else .off] := by
          cases before <;> cases after <;> first | rfl | exact absurd rfl hback
        have hmem : (if before then .on else .off) ∈ switches events := by
          rw [hlaterSwitches, hsecond]
          exact List.mem_singleton_self _
        obtain ⟨e', he', hkind'⟩ := List.mem_map.mp (List.mem_filter.mp hmem).1
        have hother := hrest e' he'
        rw [hkind'] at hother
        rw [hswitch] at hfirst
        cases before <;> cases kind <;> simp at hother hfirst
      rw [hcons, hlaterSwitches, hend, hswitch]
      cases before <;> rfl

namespace VelocityTrigger

variable {t mid last : VelocityTrigger} {value now : Nat} {es : List Event}

/-- The value asks for no transition. -/
def Rests (t : VelocityTrigger) (value : Nat) : Prop :=
  match t.phase with
  | .idle => value < t.config.minNote
  | .active => t.config.trigger ≤ value
  | .arming _ | .releasing _ => t.config.minNote ≤ value ∧ value < t.config.trigger

theorem next?_eq_none_iff : t.next? value now = none ↔ t.Rests value := by
  unfold next? Rests
  cases t.phase with
  | idle => simp
  | arming since =>
    dsimp only
    split_ifs <;> simp <;> omega
  | active => simp
  | releasing since =>
    dsimp only
    split_ifs <;> simp <;> omega

/-- Where no room for transitions is left, none is asked for. -/
theorem rests_of_movesLeft (h : t.movesLeft value = 0) : t.Rests value := by
  unfold movesLeft at h
  unfold Rests
  cases hphase : t.phase <;> simp_all

/-- A gate that is ready refuses nothing. -/
theorem Step.rests (h : t.Step value now none) (hready : t.gate.ready now = true) :
    t.Rests value := by
  cases h with
  | rest hrest =>
    rcases hrest with hnone | hrefused
    · exact next?_eq_none_iff.mp hnone
    · exact Bool.noConfusion (hready.symm.trans hrefused)

/-- A transition with an event is at the end of the way that the value points. -/
theorem Move.kind_eq {next : VelocityPhase} {e : Event} (h : t.Move value now next (some e)) :
    (e.kind = .on ∧ t.config.trigger ≤ value) ∨ (e.kind = .off ∧ value < t.config.minNote) := by
  cases h with
  | on _ hvalue _ => exact Or.inl ⟨rfl, hvalue⟩
  | off _ hvalue _ => exact Or.inr ⟨rfl, hvalue⟩

namespace Cascade

theorem eq_of_rests (h : Cascade value now t es last) (hrests : t.Rests value) :
    last = t ∧ es = [] := by
  cases h with
  | rest _ => exact ⟨rfl, rfl⟩
  | move hstep _ =>
    cases hstep with
    | move hnext _ _ =>
      rw [next?_eq_none_iff.mpr hrests] at hnext
      exact absurd hnext (Option.some_ne_none _).symm

/-- The gate is left alone or marked, and the room for transitions does not grow. -/
theorem gate_eq (h : Cascade value now t es last) :
    (last.gate = t.gate ∨ last.gate = t.gate.mark now) ∧
      last.movesLeft value ≤ t.movesLeft value := by
  induction h with
  | rest _ => exact ⟨Or.inl rfl, le_rfl⟩
  | move hstep _ ih =>
    cases hstep with
    | move _ _ hmove =>
      obtain ⟨hgate, hle⟩ := ih
      refine ⟨Or.inr ?_, hle.trans hmove.movesLeft_lt.le⟩
      rcases hgate with hgate | hgate <;> exact hgate

/-- With a gate that is ready an evaluation finds nothing to do, or makes a transition. -/
theorem advances (h : Cascade value now t es last) (hready : t.gate.ready now = true) :
    (last = t ∧ t.Rests value) ∨
      (last.gate = t.gate.mark now ∧ last.movesLeft value < t.movesLeft value) := by
  cases h with
  | rest hrest => exact Or.inl ⟨rfl, hrest.rests hready⟩
  | move hstep hlater =>
    cases hstep with
    | move _ _ hmove =>
      obtain ⟨hgate, hle⟩ := hlater.gate_eq
      refine Or.inr ⟨?_, hle.trans_lt hmove.movesLeft_lt⟩
      rcases hgate with hgate | hgate <;> exact hgate

/-- Two evaluations at one value, an interval apart, leave nothing to do. -/
theorem rests_of_two {t₁ t₂ : Nat} {es' : List Event} (h : Cascade value t₁ t es mid)
    (h' : Cascade value t₂ mid es' last) (hready : t.gate.ready t₁ = true)
    (hlater : t₁ + t.gate.interval ≤ t₂) : last.Rests value := by
  rcases h.advances hready with ⟨rfl, hrests⟩ | ⟨hgate, hless⟩
  · obtain ⟨rfl, -⟩ := h'.eq_of_rests hrests
    exact hrests
  · have hready' : mid.gate.ready t₂ = true := by
      rw [hgate, Debounce.ready_iff]
      intro time hmem
      obtain rfl := Option.some.inj hmem
      exact Or.inr hlater
    rcases h'.advances hready' with ⟨rfl, hrests⟩ | ⟨-, hless'⟩
    · exact hrests
    · have hroom := t.movesLeft_le value
      exact rests_of_movesLeft (by omega)

/-- Without an interval one evaluation leaves nothing to do. -/
theorem rests_of_unspaced (h : Cascade value now t es last) (hinterval : t.gate.interval = 0) :
    last.Rests value := by
  have hlast : last.gate.interval = 0 := by
    rcases h.gate_eq.1 with hgate | hgate <;> exact hgate ▸ hinterval
  exact h.settled.rests (Debounce.ready_iff.mpr fun _ _ => Or.inl hlast)

theorem kind_eq (h : Cascade value now t es last) :
    ∀ e ∈ es, (e.kind = .on ∧ t.config.trigger ≤ value) ∨
      (e.kind = .off ∧ value < t.config.minNote) := by
  induction h with
  | rest _ => exact List.forall_mem_nil _
  | move hstep _ ih =>
    cases hstep with
    | move _ _ hmove =>
      intro e he
      rcases List.mem_append.mp he with hfirst | hlater
      · rw [Option.mem_toList] at hfirst
        exact (hfirst ▸ hmove).kind_eq
      · exact ih e hlater

/-- Between the thresholds there is nothing to report. -/
theorem isOn_eq (h : Cascade value now t es last) (hv : t.config.validate = .ok ())
    (hmin : t.config.minNote ≤ value) (htrigger : value < t.config.trigger) :
    last.isOn = t.isOn := by
  have hnone : es = [] := by
    refine List.eq_nil_iff_forall_not_mem.mpr fun e he => ?_
    rcases h.kind_eq e he with ⟨-, hge⟩ | ⟨-, hlt⟩ <;> omega
  have hreported := h.reported hv
  rw [hnone] at hreported
  exact (Option.some.inj hreported.follows).symm

end Cascade

/-- Where a trigger that rests at a value stands. -/
theorem Rests.phase_eq (h : t.Rests value) (horder : t.config.minNote < t.config.trigger) :
    if t.config.trigger ≤ value then t.phase = .active
    else if value < t.config.minNote then t.phase = .idle
    else ∃ since, t.phase = .arming since ∨ t.phase = .releasing since := by
  unfold Rests at h
  cases hphase : t.phase with
  | idle =>
    simp only [hphase] at h
    rw [if_neg (by omega), if_pos h]
  | arming since =>
    simp only [hphase] at h
    rw [if_neg (by omega), if_neg (by omega)]
    exact ⟨since, Or.inl rfl⟩
  | active =>
    simp only [hphase] at h
    rw [if_pos h]
  | releasing since =>
    simp only [hphase] at h
    rw [if_neg (by omega), if_neg (by omega)]
    exact ⟨since, Or.inr rfl⟩

end VelocityTrigger

/-- The value that has to be exceeded lies below the top of the domain, also without its width. -/
theorem ThresholdConfig.onPoint_lt {c : ThresholdConfig} (hv : c.validate = .ok ()) :
    c.threshold + c.hysteresis < c.input.outputMax := by
  obtain ⟨hinput, hbelow, -⟩ := ThresholdConfig.validate_eq_ok.mp hv
  obtain ⟨-, hwidest, -⟩ := InputRange.validate_eq_ok.mp hinput
  simp only [Checked.saturatingAdd32, Checked.max32, InputRange.widest] at hbelow hwidest
  omega

namespace ThresholdTrigger

variable {t : ThresholdTrigger} {value : Nat}

/-- A gate that has turned at a value stays there. -/
theorem wants_turned (h : t.wants value ≠ t.on) (now : Nat) :
    (t.turned now).wants value = (t.turned now).on := by
  unfold wants at h ⊢
  unfold turned
  cases hon : t.on <;> simp_all <;> omega

end ThresholdTrigger

namespace PressureTrigger

variable {t last : PressureTrigger} {value now : Nat} {es : List Event}

/-- A note that is asked to stay stays. -/
theorem Evaluation.on_eq (h : t.Evaluation value now last es) (hwants : t.wants value = t.on) :
    last.on = t.on := by
  cases h with
  | refused hasked _ _ _ => exact absurd hwants hasked
  | stays _ _ hon _ _ => exact hon
  | turns hasked _ _ _ _ _ => exact absurd hwants hasked

/-- A gate that is ready lets the note follow the value. -/
theorem Evaluation.on_eq_wants (h : t.Evaluation value now last es)
    (hready : t.gate.ready now = true) : last.on = t.wants value := by
  cases h with
  | refused _ hrefused _ _ => exact Bool.noConfusion (hready.symm.trans hrefused)
  | stays hwants _ hon _ _ => rw [hon, hwants]
  | turns hwants _ _ hon _ _ => rw [hon, Bool.not_eq.mpr hwants.symm]

theorem Evaluation.kind_eq (h : t.Evaluation value now last es) :
    ∀ e ∈ es, e.kind = .update ∨ e.kind = if t.wants value then .on else .off := by
  have hturn (hwants : t.wants value ≠ t.on) :
      (t.turnEvent value).kind = if t.wants value then .on else .off := by
    unfold turnEvent
    cases hon : t.on <;> simp_all [Event.on, Event.off]
  cases h with
  | refused _ _ _ hes =>
    rw [hes]
    exact List.forall_mem_nil _
  | stays _ _ _ _ hes => rcases hes with rfl | rfl <;> simp [Event.update]
  | turns hwants _ _ _ _ hes => rcases hes with rfl | rfl <;> simp [Event.update, hturn hwants]

end PressureTrigger

/-- Whether settings are those of a trigger with a gate. -/
def TriggerConfig.gates : TriggerConfig → Bool
  | continuous _ => false
  | _ => true

namespace Trigger

variable {t last : Trigger} {a value now t₁ t₂ : Nat} {emitted : Emitted}

/-- Where two evaluations at a preprocessed value bring a trigger: a velocity trigger with the
second one, a gate with the first. -/
def Settles (a : Nat) : Trigger → Trigger → Trigger → Prop
  | velocity t, _, velocity last =>
    if t.config.trigger ≤ a then last.phase = .active
    else if a < t.config.minNote then last.phase = .idle
    else (∃ since, last.phase = .arming since ∨ last.phase = .releasing since) ∧
      last.isOn = t.isOn
  | threshold t, threshold mid, threshold last =>
    (mid.on = if t.config.threshold + t.config.hysteresis < a then true
      else if a < t.config.threshold then false else t.on) ∧ last.on = mid.on
  | pressure t, pressure mid, pressure last =>
    mid.on = decide (t.config.minNote ≤ a) ∧ last.on = mid.on
  | _, _, _ => False

/-- Two evaluations at a reading that is held. -/
structure Held (t : Trigger) (value a t₁ t₂ : Nat) (mid last : Trigger) (first second : Emitted) :
    Prop where
  first_eq : t.evaluate value t₁ = .ok (mid, first)
  second_eq : mid.evaluate value t₂ = .ok (last, second)
  settles : Settles a t mid last
  kind : ∃ kind, ∀ e ∈ first.events ++ second.events, e.kind = .update ∨ e.kind = kind

theorem velocity_held {t : VelocityTrigger} (h : (velocity t).Gated)
    (hready : t.gate.ready t₁ = true) (hlater : t₁ + t.config.debounce ≤ t₂)
    (happly : t.config.input.apply value = .ok a) :
    ∃ mid last first second, Held (velocity t) value a t₁ t₂ mid last first second := by
  obtain ⟨⟨hv, hf⟩, hinterval⟩ := h
  obtain ⟨v, mid, first, happly₁, -, heval₁, hfirst⟩ := VelocityTrigger.evaluate_eq hv hf value t₁
  obtain rfl := Checked.ok_unique happly happly₁
  have hconfig := hfirst.config_eq
  obtain ⟨v, last, second, happly₂, -, heval₂, hsecond⟩ :=
    VelocityTrigger.evaluate_eq (t := mid) (hconfig ▸ hv) (hconfig ▸ hf) value t₂
  rw [hconfig] at happly₂
  obtain rfl := Checked.ok_unique happly happly₂
  have hconfig' : last.config = t.config := hsecond.config_eq.trans hconfig
  have horder := (VelocityConfig.validate_eq_ok.mp hv).2.2.1
  have hinterval' : t.gate.interval = t.config.debounce := hinterval
  have hrests := hfirst.rests_of_two hsecond hready (hinterval' ▸ hlater)
  have hphase := hrests.phase_eq (hconfig' ▸ horder)
  rw [hconfig'] at hphase
  refine ⟨velocity mid, velocity last, first, second, ⟨evaluate_of_velocity heval₁,
    evaluate_of_velocity heval₂, ?_, if t.config.trigger ≤ a then .on else .off, ?_⟩⟩
  · unfold Settles
    dsimp only
    split_ifs at hphase ⊢ with htrigger hmin
    · exact hphase
    · exact hphase
    · refine ⟨hphase, ?_⟩
      rw [hsecond.isOn_eq (hconfig ▸ hv) (hconfig ▸ by omega) (hconfig ▸ by omega)]
      exact hfirst.isOn_eq hv (by omega) (by omega)
  · intro e he
    have hway : (e.kind = .on ∧ t.config.trigger ≤ a) ∨ (e.kind = .off ∧ a < t.config.minNote) := by
      rcases List.mem_append.mp he with he | he
      · exact hfirst.kind_eq e he
      · exact hconfig ▸ hsecond.kind_eq e he
    rcases hway with ⟨hon, hge⟩ | ⟨hoff, hlt⟩
    · exact Or.inr (by rw [hon, if_pos hge])
    · exact Or.inr (by rw [hoff, if_neg (by omega)])

theorem threshold_held {t : ThresholdTrigger} (h : (threshold t).Gated)
    (hready : t.gate.ready t₁ = true) (happly : t.config.input.apply value = .ok a) :
    ∃ mid last first second, Held (threshold t) value a t₁ t₂ mid last first second := by
  obtain ⟨⟨hv, hf⟩, -⟩ := h
  have heval (t' : ThresholdTrigger) (hconfig : t'.config = t.config) (now : Nat) :
      (threshold t').evaluate value now = .ok
        (if t'.wants a ≠ t'.on ∧ t'.gate.ready now = true then
          (threshold (t'.turned now), .one t'.turnEvent) else (threshold t', .none)) := by
    obtain ⟨v, happly', heval⟩ :=
      ThresholdTrigger.evaluate_eq (t := t') (hconfig ▸ hv) (hconfig ▸ hf) value now
    rw [hconfig] at happly'
    obtain rfl := Checked.ok_unique happly happly'
    split_ifs at heval ⊢ with hturn
    · exact evaluate_of_threshold heval
    · exact evaluate_of_threshold heval
  have hrest (t' : ThresholdTrigger) (hconfig : t'.config = t.config) (hwants : t'.wants a = t'.on)
      (now : Nat) : (threshold t').evaluate value now = .ok (threshold t', .none) := by
    rw [heval t' hconfig, if_neg fun hturn => hturn.1 hwants]
  by_cases hwants : t.wants a = t.on
  · refine ⟨threshold t, threshold t, .none, .none, hrest t rfl hwants t₁, hrest t rfl hwants t₂,
      ⟨?_, rfl⟩, .update, by simp⟩
    rw [← hwants]
    unfold ThresholdTrigger.wants
    cases t.on <;> grind
  · have hfirst := heval t rfl t₁
    rw [if_pos ⟨hwants, hready⟩] at hfirst
    refine ⟨threshold (t.turned t₁), threshold (t.turned t₁), .one t.turnEvent, .none, hfirst,
      hrest (t.turned t₁) rfl (t.wants_turned hwants t₁) t₂, ⟨?_, rfl⟩, t.turnEvent.kind, by simp⟩
    unfold ThresholdTrigger.wants at hwants
    unfold ThresholdTrigger.turned
    cases hon : t.on <;> simp only [hon] at hwants ⊢ <;> grind

theorem pressure_held {t : PressureTrigger} (h : (pressure t).Gated)
    (hready : t.gate.ready t₁ = true) (happly : t.config.input.apply value = .ok a) :
    ∃ mid last first second, Held (pressure t) value a t₁ t₂ mid last first second := by
  obtain ⟨⟨hv, hf⟩, -⟩ := h
  obtain ⟨v, mid, first, happly₁, -, heval₁, hfirst⟩ := PressureTrigger.evaluate_eq hv hf value t₁
  obtain rfl := Checked.ok_unique happly happly₁
  have hconfig := hfirst.config_eq
  obtain ⟨v, last, second, happly₂, -, heval₂, hsecond⟩ :=
    PressureTrigger.evaluate_eq (t := mid) (hconfig ▸ hv) (hconfig ▸ hf) value t₂
  rw [hconfig] at happly₂
  obtain rfl := Checked.ok_unique happly happly₂
  have hon := hfirst.on_eq_wants hready
  have hsame : mid.wants a = t.wants a := by
    unfold PressureTrigger.wants
    rw [hconfig]
  refine ⟨pressure mid, pressure last, first, second, ⟨evaluate_of_pressure heval₁,
    evaluate_of_pressure heval₂, ⟨hon, hsecond.on_eq (hsame.trans hon.symm)⟩,
    if t.wants a then .on else .off, ?_⟩⟩
  intro e he
  rcases List.mem_append.mp he with he | he
  · exact hfirst.kind_eq e he
  · exact hsame ▸ hsecond.kind_eq e he

/-- Every gated kind of trigger settles. -/
theorem held (h : t.Gated) (hgates : t.config.gates = true) (hready : t.gate.ready t₁ = true)
    (hlater : t₁ + t.config.debounce ≤ t₂) (happly : t.config.input.apply value = .ok a) :
    ∃ mid last first second, Held t value a t₁ t₂ mid last first second := by
  cases t with
  | velocity t => exact velocity_held h hready hlater happly
  | threshold t => exact threshold_held h hready happly
  | pressure t => exact pressure_held h hready happly
  | continuous t => exact Bool.noConfusion hgates

/-- At the top of its domain a trigger settles on. -/
theorem Settles.isOn {mid : Trigger} (h : Settles t.config.input.outputMax t mid last)
    (hv : t.config.validate = .ok ()) : last.isOn = true := by
  cases t with
  | velocity t =>
    cases last with
    | velocity last =>
      obtain ⟨-, -, -, htop⟩ := VelocityConfig.validate_eq_ok.mp hv
      have hphase : last.phase = .active := (if_pos htop).mp h
      simp only [Trigger.isOn, VelocityTrigger.isOn, hphase]
    | _ => exact h.elim
  | threshold t =>
    cases mid with
    | threshold mid =>
      cases last with
      | threshold last =>
        obtain ⟨hmid, hlast⟩ := h
        exact hlast.trans (hmid.trans (if_pos (ThresholdConfig.onPoint_lt hv)))
      | _ => exact h.elim
    | _ => exact h.elim
  | pressure t =>
    cases mid with
    | pressure mid =>
      cases last with
      | pressure last =>
        obtain ⟨hmid, hlast⟩ := h
        obtain ⟨-, horder, htop, -⟩ := PressureConfig.validate_eq_ok.mp hv
        exact hlast.trans (hmid.trans (decide_eq_true (horder.trans htop)))
      | _ => exact h.elim
    | _ => exact h.elim
  | continuous t => exact h.elim

/-- A change of the settings leaves the kind of a trigger alone. -/
theorem change_gates {setting : TriggerSetting} (h : t.change setting = .ok last) :
    last.config.gates = t.config.gates := by
  rw [change_config h]
  cases t.config <;> cases setting <;> rfl

/-- From accepted settings of a trigger with a gate, after any calls: two evaluations at a reading
that is held, the first when the gate is ready and the second an interval later, bring the trigger
to where the preprocessed value stands, and report the turn of its gate once, if there is one. The
top of the domain turns it on, and some reading is taken there. -/
theorem holding_settles {c : TriggerConfig} (hgates : c.gates = true) (hv : c.validate = .ok ())
    (hf : c.Fits) {calls : List TriggerCall} (hcalls : ∀ call ∈ calls, call.Fits) :
    ∃ t t' log, c.build = .ok t ∧ t.run calls = .ok (t', log) ∧
      (∀ value, ∃ a, t'.config.input.apply value = .ok a ∧
        ∀ t₁ t₂, t'.gate.ready t₁ = true → t₁ + t'.config.debounce ≤ t₂ →
          ∃ mid last first second, t'.evaluate value t₁ = .ok (mid, first) ∧
            mid.evaluate value t₂ = .ok (last, second) ∧ Settles a t' mid last ∧
            switches (first.events ++ second.events) = owedSwitches t'.isOn last.isOn ∧
            (a = t'.config.input.outputMax → last.isOn = true)) ∧
      ∃ value ≤ Checked.max32,
        t'.config.input.apply value = .ok t'.config.input.outputMax := by
  have hrest := atRest_gated hv hf
  obtain ⟨t', log, hrun, hlogged⟩ := run_logged hrest hcalls
  have hgates' : t'.config.gates = true := by
    rw [run_keeps change_gates hrest hcalls hrun, c.config_atRest, hgates]
  obtain ⟨⟨hv', hf'⟩, -⟩ := hlogged.gated
  have hinput : t'.config.input.validate = .ok () := TriggerConfig.input_of_validate hv'
  refine ⟨c.atRest, t', log, c.build_eq_ok hv, hrun, ?_,
    InputRange.exists_apply_eq_outputMax hinput hf'⟩
  intro value
  obtain ⟨a, happly, -⟩ := InputRange.apply_eq_ok hinput hf' value
  refine ⟨a, happly, ?_⟩
  intro t₁ t₂ hready hlater
  obtain ⟨mid, last, first, second, hfirst, hsecond, hsettles, kind, hkind⟩ :=
    held hlogged.gated hgates' hready hlater happly
  obtain ⟨hconfig, hreported⟩ := evaluate_reported hlogged.gated.sound hfirst
  obtain ⟨-, hreported'⟩ := evaluate_reported ⟨hconfig ▸ hv', hconfig ▸ hf'⟩ hsecond
  refine ⟨mid, last, first, second, hfirst, hsecond, hsettles,
    switches_of_kind (hreported.append hreported').follows hkind, ?_⟩
  rintro rfl
  exact hsettles.isOn hv'

end Trigger

/-- A lever upside down, which is on at rest. -/
def upturnedLever : ThresholdConfig where
  threshold := 30
  hysteresis := 2
  input := { minInput := some 5, maxInput := some 1020, invert := true }
  debounce := 20

/-- The lever turns on, and then its way back is held up by the debounce. -/
def upturnedLeverCalls : List TriggerCall := [.evaluate 5 40, .evaluate 1020 50]

theorem upturnedLever_accepted : (TriggerConfig.threshold upturnedLever).validate = .ok () :=
  Checked.eq_ok_of_isOk (by decide +kernel)

theorem upturnedLever_settles :
    (TriggerConfig.threshold upturnedLever).gates = true ∧
      (TriggerConfig.threshold upturnedLever).validate = .ok () ∧
      (TriggerConfig.threshold upturnedLever).Fits ∧ (∀ call ∈ upturnedLeverCalls, call.Fits) ∧
      ∃ t t' log, (TriggerConfig.threshold upturnedLever).build = .ok t ∧
        t.run upturnedLeverCalls = .ok (t', log) ∧ t'.gate.ready 60 = true ∧
        60 + t'.config.debounce ≤ 80 ∧
        ∃ mid last first second, t'.evaluate 1020 60 = .ok (mid, first) ∧
          mid.evaluate 1020 80 = .ok (last, second) ∧ Trigger.Settles 0 t' mid last ∧
          switches (first.events ++ second.events) = owedSwitches true last.isOn := by
  have hfits : ∀ call ∈ upturnedLeverCalls, call.Fits := by
    unfold upturnedLeverCalls
    simp [TriggerCall.Fits]
  obtain ⟨t, t', log, hbuild, hrun, hhold, -⟩ :=
    Trigger.holding_settles (c := .threshold upturnedLever) rfl upturnedLever_accepted (by decide)
      hfits
  obtain rfl := Checked.ok_unique hbuild (TriggerConfig.build_eq_ok upturnedLever_accepted)
  have hon : (TriggerConfig.threshold upturnedLever).atRest.run upturnedLeverCalls =
      .ok (.threshold (ThresholdTrigger.mk upturnedLever true ⟨20, some 40⟩), _) := rfl
  obtain ⟨rfl, -⟩ := Checked.ok_unique_pair hrun hon
  obtain ⟨a, happly, hhold⟩ := hhold 1020
  obtain rfl : a = 0 := Checked.ok_unique happly rfl
  obtain ⟨mid, last, first, second, hfirst, hsecond, hsettles, hswitches, -⟩ :=
    hhold 60 80 rfl (by decide)
  exact ⟨rfl, upturnedLever_accepted, by decide, hfits, _, _, log, hbuild, hrun, rfl, by decide,
    mid, last, first, second, hfirst, hsecond, hsettles, hswitches⟩

end SensorEvents
