import SensorEvents.Proofs.Trigger.Settling
import SensorEvents.Proofs.Trigger.Shift

/-!
# No second turn within the band

A trigger with two levels goes on at or above the upper one and off below the lower one. Values that
reach both are further apart than the levels are. So as long as the values of a stretch stay as near
to each other as the levels, all that the trigger reports is of one kind, and a gate does not turn
twice in one direction. How the transitions are timed does not come into this.
-/
namespace SensorEvents

/-- The level below which a trigger of two levels goes off, and that from which it goes on. -/
def TriggerConfig.levels? : TriggerConfig → Option (Nat × Nat)
  | velocity c => some (c.minNote, c.trigger)
  | threshold c => some (c.threshold, c.threshold + c.hysteresis + 1)
  | _ => none

/-- How far apart values can be that do not turn a trigger of two levels twice. -/
def TriggerConfig.band? : TriggerConfig → Option Nat
  | velocity c => some (c.trigger - c.minNote)
  | threshold c => some (c.hysteresis + 1)
  | _ => none

/-- The call evaluates a value, or changes settings other than the levels. -/
def TriggerCall.KeepsLevels : TriggerCall → Prop
  | evaluate _ _ => True
  | set (.thresholds _ _) => False
  | set (.threshold _ _) => False
  | set _ => True
  | reset => False

/-- The levels of accepted settings are as far apart as their band. -/
theorem TriggerConfig.levels_of_band {c : TriggerConfig} (hv : c.validate = .ok ()) {width : Nat}
    (h : c.band? = some width) : ∃ low, c.levels? = some (low, low + width) := by
  cases c with
  | velocity c =>
    obtain ⟨-, -, horder, -⟩ := VelocityConfig.validate_eq_ok.mp hv
    obtain rfl := Option.some.inj h
    refine ⟨c.minNote, ?_⟩
    rw [levels?, Nat.add_sub_cancel' horder.le]
  | threshold c =>
    obtain rfl := Option.some.inj h
    exact ⟨c.threshold, rfl⟩
  | pressure c => exact nomatch h
  | continuous c => exact nomatch h

/-- A gate that is turned in one direction only is turned once. -/
theorem length_le_one_of_kind (kind : EventKind) {before after : Bool} {events : List Event}
    (h : gateAfter? before events = some after) (hkind : ∀ e ∈ events, e.kind = kind)
    (hswitch : kind ≠ .update) : events.length ≤ 1 := by
  have hall : (events.map Event.kind).filter (· ≠ .update) = events.map Event.kind := by
    refine List.filter_eq_self.mpr fun k hk => ?_
    obtain ⟨e, he, rfl⟩ := List.mem_map.mp hk
    exact decide_eq_true (hkind e he ▸ hswitch)
  have howed := switches_of_kind h fun e he => Or.inr (hkind e he)
  rw [switches, hall] at howed
  rw [← List.length_map (f := Event.kind), howed, owedSwitches]
  split_ifs
  · exact Nat.zero_le 1
  all_goals exact le_rfl

namespace Trigger

/-- The preprocessed values of the evaluations among calls. -/
def prepared (t : Trigger) : List TriggerCall → Checked (List Nat)
  | [] => .ok []
  | call :: calls => do
    let first ← match call with
      | .evaluate value _ => (fun v => [v]) <$> t.config.input.apply value
      | _ => .ok []
    let turn ← t.turn call
    let later ← turn.after.prepared calls
    return first ++ later

variable {t last : Trigger} {low high value now : Nat}

/-- An event turns the gate, and the value is beyond the level for it. -/
def Beyond (low high : Nat) (values : List Nat) (e : Event) : Prop :=
  (e.kind = .on ∧ ∃ v ∈ values, high ≤ v) ∨ (e.kind = .off ∧ ∃ v ∈ values, v < low)

theorem evaluate_beyond (h : t.Sound) (hlevels : t.config.levels? = some (low, high))
    (value now : Nat) :
    ∃ v last emitted, t.config.input.apply value = .ok v ∧
      t.evaluate value now = .ok (last, emitted) ∧
      ∀ e ∈ emitted.events, Beyond low high [v] e := by
  obtain ⟨hv, hf⟩ := h
  cases t with
  | velocity t =>
    obtain ⟨rfl, rfl⟩ := Prod.mk.inj (Option.some.inj hlevels)
    obtain ⟨v, last, emitted, happly, -, heval, hcascade⟩ :=
      VelocityTrigger.evaluate_eq hv hf value now
    refine ⟨v, velocity last, emitted, happly, evaluate_of_velocity heval, fun e he => ?_⟩
    have hkind := hcascade.kind_eq e he
    simpa [Beyond] using hkind
  | threshold t =>
    obtain ⟨rfl, rfl⟩ := Prod.mk.inj (Option.some.inj hlevels)
    obtain ⟨v, happly, heval⟩ := ThresholdTrigger.evaluate_eq hv hf value now
    split_ifs at heval with hturn
    · refine ⟨v, _, _, happly, evaluate_of_threshold heval, fun e he => ?_⟩
      obtain rfl := List.mem_singleton.mp he
      have hwants := hturn.1
      simp only [ThresholdTrigger.wants] at hwants
      simp only [Beyond, ThresholdTrigger.turnEvent, List.mem_singleton, exists_eq_left]
      cases hon : t.on with
      | true => exact .inr ⟨rfl, by simpa [hon] using hwants⟩
      | false => exact .inl ⟨rfl, by simpa [hon] using hwants⟩
    · exact ⟨v, _, _, happly, evaluate_of_threshold heval, nofun⟩
  | pressure t => exact nomatch hlevels
  | continuous t => exact nomatch hlevels

/-- A change of other settings leaves the levels and the gate alone. -/
theorem change_keepsLevels {setting : TriggerSetting} (hkeeps : (TriggerCall.set setting).KeepsLevels)
    (h : t.change setting = .ok last) :
    last.config.levels? = t.config.levels? ∧ last.isOn = t.isOn := by
  cases t <;> cases setting <;>
    first
    | exact hkeeps.elim
    | (obtain rfl := Except.ok.inj h; exact ⟨rfl, rfl⟩)
    | (obtain ⟨-, rfl⟩ := Checked.map_checked_eq_ok.mp h; exact ⟨rfl, rfl⟩)

/-- A trigger has come from one to another at some values, with some events, and its levels are the
same. -/
structure Stretched (t : Trigger) (low high : Nat) (values : List Nat) (events : List Event)
    (last : Trigger) : Prop where
  gated : last.Gated
  levels : last.config.levels? = t.config.levels?
  follows : gateAfter? t.isOn events = some last.isOn
  beyond : ∀ e ∈ events, Beyond low high values e

theorem turn_stretched (h : t.Gated) (hlevels : t.config.levels? = some (low, high))
    {call : TriggerCall} (hf : call.Fits) (hkeeps : call.KeepsLevels) :
    ∃ values turn, t.turn call = .ok turn ∧
      (∀ calls later, turn.after.prepared calls = .ok later →
        t.prepared (call :: calls) = .ok (values ++ later)) ∧
      t.Stretched low high values turn.events turn.after := by
  cases call with
  | evaluate value now =>
    obtain ⟨v, last, emitted, happly, heval, hbeyond⟩ := evaluate_beyond h.sound hlevels value now
    obtain ⟨hconfig, hreported⟩ := evaluate_reported h.sound heval
    have hturn := turn_of_evaluate heval
    refine ⟨[v], _, hturn, fun calls later hlater => ?_, turn_gated h hf hturn,
      congrArg TriggerConfig.levels? hconfig, hreported.follows, hbeyond⟩
    simp only [prepared, happly, Checked.map_ok, Checked.ok_bind, hturn, hlater]
    rfl
  | set setting =>
    cases hchange : t.change setting with
    | ok last =>
      obtain ⟨hsame, hon⟩ := change_keepsLevels hkeeps hchange
      have hturn := turn_of_change hchange
      refine ⟨[], _, hturn, fun calls later hlater => ?_, turn_gated h hf hturn, hsame,
        congrArg some hon.symm, nofun⟩
      simp only [prepared, Checked.ok_bind, hturn, hlater]
      rfl
    | error e =>
      have hturn := turn_of_refused hchange
      refine ⟨[], _, hturn, fun calls later hlater => ?_, h, rfl, rfl, nofun⟩
      simp only [prepared, Checked.ok_bind, hturn, hlater]
      rfl
  | reset => exact hkeeps.elim

theorem Beyond.mono {values more : List Nat} {e : Event} (h : Beyond low high values e)
    (hsub : values ⊆ more) : Beyond low high more e :=
  h.imp (fun ⟨hon, v, hv, hle⟩ => ⟨hon, v, hsub hv, hle⟩)
    fun ⟨hoff, v, hv, hlt⟩ => ⟨hoff, v, hsub hv, hlt⟩

theorem Stretched.trans {mid : Trigger} {values later : List Nat} {events more : List Event}
    (h : t.Stretched low high values events mid) (h' : mid.Stretched low high later more last) :
    t.Stretched low high (values ++ later) (events ++ more) last := by
  refine ⟨h'.gated, h'.levels.trans h.levels, ?_, fun e he => ?_⟩
  · rw [gateAfter?_append, h.follows]
    exact h'.follows
  · rcases List.mem_append.mp he with he | he
    · exact (h.beyond e he).mono (List.subset_append_left _ _)
    · exact (h'.beyond e he).mono (List.subset_append_right _ _)

theorem turns_stretched (h : t.Gated) (hlevels : t.config.levels? = some (low, high))
    {calls : List TriggerCall} (hcalls : ∀ call ∈ calls, call.Fits ∧ call.KeepsLevels) :
    ∃ values turns last, t.turns calls = .ok turns ∧ t.prepared calls = .ok values ∧
      t.Stretched low high values (turns.flatMap TriggerTurn.events) last := by
  induction calls generalizing t with
  | nil => exact ⟨[], [], t, rfl, rfl, h, rfl, rfl, nofun⟩
  | cons call calls ih =>
    obtain ⟨⟨hf, hkeeps⟩, hrest⟩ := List.forall_mem_cons.mp hcalls
    obtain ⟨values, turn, hturn, hprepared, hfirst⟩ := turn_stretched h hlevels hf hkeeps
    obtain ⟨later, turns, last, hturns, hlater, hstretched⟩ :=
      ih hfirst.gated (hfirst.levels.trans hlevels) hrest
    refine ⟨values ++ later, turn :: turns, last, ?_, hprepared calls later hlater,
      hfirst.trans hstretched⟩
    simp only [Trigger.turns, hturn, hturns, Checked.ok_bind]
    rfl

/-- Values within the levels of each other do not reach both. -/
theorem Stretched.length_le_one {values : List Nat} {events : List Event} {width : Nat}
    (h : t.Stretched low (low + width) values events last)
    (hspan : ∀ v ∈ values, ∀ w ∈ values, v ≤ w + width) : events.length ≤ 1 := by
  by_cases hreached : ∃ v ∈ values, low + width ≤ v
  · obtain ⟨v, hv, hle⟩ := hreached
    refine length_le_one_of_kind .on h.follows (fun e he => ?_) nofun
    rcases h.beyond e he with ⟨hon, -⟩ | ⟨-, w, hw, hlt⟩
    · exact hon
    · have hnear := hspan v hv w hw
      omega
  · refine length_le_one_of_kind .off h.follows (fun e he => ?_) nofun
    rcases h.beyond e he with ⟨-, v, hv, hle⟩ | ⟨hoff, -⟩
    · exact absurd ⟨v, hv, hle⟩ hreached
    · exact hoff

/-- From accepted settings, after any calls: a trigger of two levels reports at most one event in a
stretch of evaluations, at whatever times and with whatever changes of other settings between them,
if the preprocessed values of the stretch are no further apart than its band. -/
theorem turns_once_within_band {c : TriggerConfig} (hv : c.validate = .ok ()) (hf : c.Fits)
    {earlier stretch : List TriggerCall} (hearlier : ∀ call ∈ earlier, call.Fits)
    (hstretch : ∀ call ∈ stretch, call.Fits ∧ call.KeepsLevels) :
    ∃ t t' log, c.build = .ok t ∧ t.run earlier = .ok (t', log) ∧
      ∀ width, t'.config.band? = some width →
        ∃ values turns, t'.prepared stretch = .ok values ∧ t'.turns stretch = .ok turns ∧
          ((∀ v ∈ values, ∀ w ∈ values, v ≤ w + width) →
            (turns.flatMap TriggerTurn.events).length ≤ 1) := by
  obtain ⟨t', log, hrun, hlogged⟩ := run_logged (atRest_gated hv hf) hearlier
  refine ⟨c.atRest, t', log, c.build_eq_ok hv, hrun, fun width hwidth => ?_⟩
  obtain ⟨low, hlevels⟩ := TriggerConfig.levels_of_band hlogged.gated.sound.accepted hwidth
  obtain ⟨values, turns, last, hturns, hvalues, hstretched⟩ :=
    turns_stretched hlogged.gated hlevels hstretch
  exact ⟨values, turns, hvalues, hturns, hstretched.length_le_one⟩

end Trigger

/-- The upturned lever is on, and its release is held up: noise about the threshold, in a clock that
runs backwards, while the interval is taken away. -/
def noisyLeverCalls : List TriggerCall :=
  [.evaluate 789 50, .set (.debounce 0), .evaluate 765 10, .evaluate 789 5, .evaluate 765 9]

/-- Three values apart, the readings turn the lever off and not on again. -/
theorem upturnedLever_turns_once :
    (TriggerConfig.threshold upturnedLever).validate = .ok () ∧
      (TriggerConfig.threshold upturnedLever).Fits ∧ (∀ call ∈ upturnedLeverCalls, call.Fits) ∧
      (∀ call ∈ noisyLeverCalls, call.Fits ∧ call.KeepsLevels) ∧
      ∃ t t' log values turns, (TriggerConfig.threshold upturnedLever).build = .ok t ∧
        t.run upturnedLeverCalls = .ok (t', log) ∧ t'.isOn = true ∧ t'.config.band? = some 3 ∧
        t'.prepared noisyLeverCalls = .ok values ∧ values = [29, 32, 29, 32] ∧
        t'.turns noisyLeverCalls = .ok turns ∧ turns.flatMap TriggerTurn.events = [.off 0] ∧
        (turns.flatMap TriggerTurn.events).length ≤ 1 := by
  have hfits : ∀ call ∈ upturnedLeverCalls, call.Fits := by
    simp [upturnedLeverCalls, TriggerCall.Fits]
  have hkeeps : ∀ call ∈ noisyLeverCalls, call.Fits ∧ call.KeepsLevels := by
    simp [noisyLeverCalls, TriggerCall.Fits, TriggerSetting.Fits, TriggerCall.KeepsLevels]
  obtain ⟨t, t', log, hbuild, hrun, hstretch⟩ :=
    Trigger.turns_once_within_band upturnedLever_accepted (by decide) hfits hkeeps
  obtain rfl := Checked.ok_unique hbuild (TriggerConfig.build_eq_ok upturnedLever_accepted)
  have hon : (TriggerConfig.threshold upturnedLever).atRest.run upturnedLeverCalls =
      .ok (.threshold (ThresholdTrigger.mk upturnedLever true ⟨20, some 40⟩), _) := rfl
  obtain ⟨rfl, -⟩ := Checked.ok_unique_pair hrun hon
  obtain ⟨values, turns, hvalues, hturns, honce⟩ := hstretch 3 rfl
  have hfour : (Trigger.threshold (ThresholdTrigger.mk upturnedLever true ⟨20, some 40⟩)).prepared
      noisyLeverCalls = .ok [29, 32, 29, 32] := rfl
  have hoff : List.flatMap TriggerTurn.events <$>
      (Trigger.threshold (ThresholdTrigger.mk upturnedLever true ⟨20, some 40⟩)).turns
        noisyLeverCalls = .ok [.off 0] := rfl
  obtain rfl := Checked.ok_unique hvalues hfour
  rw [hturns, Checked.map_ok] at hoff
  exact ⟨upturnedLever_accepted, by decide, hfits, hkeeps, _, _, log, _, turns, hbuild, hrun, rfl,
    rfl, hvalues, rfl, hturns, Except.ok.inj hoff, honce (by decide)⟩

end SensorEvents
