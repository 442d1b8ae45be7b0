import SensorEvents.Proofs.Config.Validation
import SensorEvents.Proofs.Trigger.Settings
import SensorEvents.Proofs.Trigger.Shift

/-!
# The stream of a continuous trigger

A continuous trigger reports a value when it is not the one that was reported last. Its reports are
therefore the preprocessed values with repetitions taken out, and the receiver always has the last
one. An input range is monotone up or down, so that along readings which go one way no value comes
back, and each value of the domain is reported at most once.
-/
namespace SensorEvents

/-- The settings of a continuous trigger. -/
def TriggerConfig.continuous? : TriggerConfig → Option ContinuousConfig
  | continuous c => some c
  | _ => none

theorem TriggerConfig.eq_of_continuous? {config : TriggerConfig} {c : ContinuousConfig}
    (h : config.continuous? = some c) : config = continuous c := by
  cases config with
  | continuous _ => exact congrArg continuous (Option.some.inj h)
  | _ => exact nomatch h

/-- Evaluations of readings, each with its time. -/
def evaluations (readings : List (Nat × Nat)) : List TriggerCall :=
  readings.map fun reading => .evaluate reading.1 reading.2

/-- In a list that goes one way, no element comes back once repetitions are taken out. -/
theorem nodup_destutter {α : Type} [DecidableEq α] {r : α → α → Prop} [IsTrans α r]
    [Std.Antisymm r] {l : List α} (h : l.Pairwise r) : (l.destutter (· ≠ ·)).Nodup := by
  have hway := h.sublist (l.destutter_sublist (· ≠ ·))
  have hnew := l.isChain_destutter (· ≠ ·)
  have hstrict : (l.destutter (· ≠ ·)).IsChain fun a b => r a b ∧ a ≠ b := by
    rw [List.isChain_iff_getElem] at hnew ⊢
    intro i hi
    exact ⟨List.pairwise_iff_getElem.mp hway i (i + 1) _ hi (Nat.lt_succ_self i), hnew i hi⟩
  have htrans : IsTrans α fun a b => r a b ∧ a ≠ b := by
    constructor
    rintro a b d ⟨hab, hne⟩ ⟨hbd, -⟩
    refine ⟨IsTrans.trans a b d hab hbd, ?_⟩
    rintro rfl
    exact hne (antisymm hab hbd)
  exact (List.isChain_iff_pairwise.mp hstrict).imp And.right

/-- There are no more different numbers than a domain has. -/
theorem length_le_of_nodup {l : List Nat} {top : Nat} (h : l.Nodup) (hle : ∀ v ∈ l, v ≤ top) :
    l.length ≤ top + 1 := by
  have hsub : l ⊆ List.range (top + 1) := fun v hv =>
    List.mem_range.mpr (Nat.lt_succ_of_le (hle v hv))
  calc l.length ≤ (List.range (top + 1)).length := (h.subperm hsub).length_le
    _ = top + 1 := List.length_range

namespace InputRange

/-- An accepted range gives every value a result inside its domain, and goes up or down with the
value. -/
theorem exists_ordered {r : InputRange} (hv : r.validate = .ok ()) (hf : r.Fits) :
    ∃ f : Nat → Nat, (∀ value, r.apply value = .ok (f value)) ∧ (∀ value, f value ≤ r.outputMax) ∧
      (Monotone f ∨ Antitone f) := by
  cases hinvert : r.invert with
  | false =>
    have hprepares := prepares_upright hv hf hinvert
    exact ⟨_, hprepares.apply_eq, hprepares.le_outputMax, .inl (hprepares.mono hinvert)⟩
  | true =>
    have hprepares := prepares_mirrored hv hf hinvert
    exact ⟨_, hprepares.apply_eq, hprepares.le_outputMax, .inr (hprepares.anti hinvert)⟩

end InputRange

namespace ContinuousTrigger

/-- What comes of evaluating preprocessed values after `last` was reported. -/
def answers (c : ContinuousConfig) (last : Option Nat) : List Nat → List TriggerTurn
  | [] => []
  | v :: values =>
    { events := if last = some v then [] else [.update v]
      after := .continuous { config := c, lastSent := some v } } :: answers c (some v) values

variable {c : ContinuousConfig} {last : Option Nat} {values : List Nat}

/-- After each evaluation the value that was reported last is the current one. -/
theorem after_answers (c : ContinuousConfig) (last : Option Nat) (values : List Nat) :
    (answers c last values).map TriggerTurn.after =
      values.map fun v => .continuous { config := c, lastSent := some v } := by
  induction values generalizing last with
  | nil => rfl
  | cons v values ih => rw [answers, List.map_cons, ih, List.map_cons]

/-- A value that repeats the one before it is not reported. -/
theorem events_answers_of_repeated {i v : Nat} {turn : TriggerTurn} (hfirst : values[i]? = some v)
    (hagain : values[i + 1]? = some v) (hturn : (answers c last values)[i + 1]? = some turn) :
    turn.events = [] := by
  induction values generalizing last i with
  | nil => exact nomatch hfirst
  | cons w values ih =>
    rw [answers, List.getElem?_cons_succ] at hturn
    rw [List.getElem?_cons_succ] at hagain
    cases i with
    | zero =>
      obtain rfl := Option.some.inj hfirst
      cases values with
      | nil => exact nomatch hagain
      | cons u values =>
        obtain rfl := Option.some.inj hagain
        obtain rfl := Option.some.inj hturn
        exact if_pos rfl
    | succ i => exact ih hfirst hagain hturn

/-- A value that was reported, and what is reported after it. -/
theorem events_answers_some (c : ContinuousConfig) (v : Nat) (values : List Nat) :
    Event.update v :: (answers c (some v) values).flatMap TriggerTurn.events =
      (values.destutter' (· ≠ ·) v).map .update := by
  induction values generalizing v with
  | nil => rfl
  | cons w values ih =>
    rw [answers, List.flatMap_cons]
    by_cases hrepeated : v = w
    · subst hrepeated
      rw [if_pos rfl, List.nil_append, List.destutter'_cons_neg _ (not_not.mpr rfl)]
      exact ih v
    · have hnew : some v ≠ some w := fun h => hrepeated (Option.some.inj h)
      rw [if_neg hnew, List.destutter'_cons_pos _ hrepeated, List.map_cons, ← ih w]
      rfl

/-- The reports after nothing was reported. -/
theorem events_answers_none (c : ContinuousConfig) (values : List Nat) :
    (answers c none values).flatMap TriggerTurn.events =
      (values.destutter (· ≠ ·)).map .update := by
  cases values with
  | nil => rfl
  | cons v values => exact events_answers_some c v values

/-- An evaluation, given what the input range makes of its value. -/
theorem turn_evaluate {t : ContinuousTrigger} {value v : Nat} (h : t.config.input.apply value = .ok v)
    (now : Nat) :
    (Trigger.continuous t).turn (.evaluate value now) =
      .ok { events := if t.lastSent = some v then [] else [.update v]
            after := .continuous { t with lastSent := some v } } := by
  obtain ⟨config, lastSent⟩ := t
  simp only [Trigger.turn, Trigger.evaluate, evaluate, h, Checked.ok_bind]
  by_cases hrepeated : lastSent = some v
  · rw [if_pos hrepeated, if_pos hrepeated, hrepeated]
    rfl
  · rw [if_neg hrepeated, if_neg hrepeated]
    rfl

theorem turns_evaluations {f : Nat → Nat} (t : ContinuousTrigger)
    (h : ∀ value, t.config.input.apply value = .ok (f value)) (readings : List (Nat × Nat)) :
    (Trigger.continuous t).turns (evaluations readings) =
      .ok (answers t.config t.lastSent ((readings.map Prod.fst).map f)) := by
  induction readings generalizing t with
  | nil => rfl
  | cons reading readings ih =>
    have hturn := turn_evaluate (h reading.1) reading.2
    have hlater := ih { t with lastSent := some (f reading.1) } h
    unfold evaluations at hlater ⊢
    simp only [List.map_cons, Trigger.turns, hturn, Checked.ok_bind, hlater]
    rfl

/-- Along readings that go one way, no more is reported than the domain has values. -/
theorem length_events_answers_le {f : Nat → Nat} {top : Nat} (hle : ∀ value, f value ≤ top)
    (hordered : Monotone f ∨ Antitone f) {raw : List Nat}
    (hraw : raw.Pairwise (· ≤ ·) ∨ raw.Pairwise (· ≥ ·)) :
    ((answers c none (raw.map f)).flatMap TriggerTurn.events).length ≤ top + 1 := by
  have hway : (raw.map f).Pairwise (· ≤ ·) ∨ (raw.map f).Pairwise (· ≥ ·) := by
    rw [List.pairwise_map, List.pairwise_map]
    rcases hordered with hmono | hanti
    · exact hraw.imp (List.Pairwise.imp fun h => hmono h) (List.Pairwise.imp fun h => hmono h)
    · exact hraw.symm.imp (List.Pairwise.imp fun h => hanti h) (List.Pairwise.imp fun h => hanti h)
  have hnodup : ((raw.map f).destutter (· ≠ ·)).Nodup :=
    hway.elim nodup_destutter nodup_destutter
  rw [events_answers_none, List.length_map]
  refine length_le_of_nodup hnodup fun v hv => ?_
  obtain ⟨value, -, rfl⟩ := List.mem_map.mp ((List.destutter_sublist _ _).subset hv)
  exact hle value

end ContinuousTrigger

namespace Trigger

theorem change_continuous? {t t' : Trigger} {setting : TriggerSetting}
    (h : t.change setting = .ok t') : t'.config.continuous? = t.config.continuous? := by
  rw [change_config h]
  cases t.config <;> cases setting <;> rfl

/-- Whatever is called, a continuous trigger is as it was built once it is reset. -/
theorem run_continuous {c : ContinuousConfig} (hv : c.validate = .ok ()) (hf : c.input.Fits)
    {calls : List TriggerCall} (hcalls : ∀ call ∈ calls, call.Fits) :
    ∃ t log, (TriggerConfig.continuous c).atRest.run calls = .ok (t, log) ∧
      t.reset = (TriggerConfig.continuous c).atRest := by
  have hgated : (TriggerConfig.continuous c).atRest.Gated := atRest_gated hv hf
  obtain ⟨t, log, hrun, hlogged⟩ := run_logged hgated hcalls
  have hconfig := run_keeps change_continuous? hgated hcalls hrun
  refine ⟨t, log, hrun, ?_⟩
  rw [reset_eq hlogged.gated, TriggerConfig.eq_of_continuous? hconfig]

/-- From accepted settings, after a start or a reset, whatever was called before it: evaluations at
any times report the preprocessed values with repetitions taken out, in order and none of them cut.
After each evaluation the value that was reported last is the current one, and a value that repeats
the one before it is not reported. Of readings that only rise or only fall, at most as many are
reported as the domain has values. -/
theorem continuous_reports_changes {c : ContinuousConfig} (hv : c.validate = .ok ())
    (hf : c.input.Fits) {calls : List TriggerCall} (hcalls : ∀ call ∈ calls, call.Fits) :
    ∃ t t' log, (TriggerConfig.continuous c).build = .ok t ∧ t.run calls = .ok (t', log) ∧
      t'.reset = t ∧
      (∀ readings : List (Nat × Nat), ∃ values turns,
        (readings.map Prod.fst).mapM c.input.apply = .ok values ∧
        t.turns (evaluations readings) = .ok turns ∧
        turns.flatMap TriggerTurn.events = (values.destutter (· ≠ ·)).map .update ∧
        (∀ e ∈ turns.flatMap TriggerTurn.events, e.Lossless) ∧
        (turns.map TriggerTurn.after =
          values.map fun v => .continuous { config := c, lastSent := some v }) ∧
        (∀ i v turn, values[i]? = some v → values[i + 1]? = some v → turns[i + 1]? = some turn →
          turn.events = []) ∧
        ((readings.map Prod.fst).Pairwise (· ≤ ·) ∨ (readings.map Prod.fst).Pairwise (· ≥ ·) →
          (turns.flatMap TriggerTurn.events).length ≤ c.input.outputMax + 1)) ∧
      ∀ first second : Nat × Nat, c.input.apply first.1 = c.input.apply second.1 →
        ∃ v turns, c.input.apply first.1 = .ok v ∧
          t.turns (evaluations [first, second]) = .ok turns ∧
          turns.flatMap TriggerTurn.events = [.update v] := by
  have hinput := ContinuousConfig.validate_eq_ok.mp hv
  obtain ⟨-, hwidest, -⟩ := InputRange.validate_eq_ok.mp hinput
  obtain ⟨f, happly, hle, hordered⟩ := InputRange.exists_ordered hinput hf
  obtain ⟨t', log, hrun, hreset⟩ := run_continuous hv hf hcalls
  have hturns := ContinuousTrigger.turns_evaluations { config := c } happly
  refine ⟨_, t', log, TriggerConfig.build_eq_ok hv, hrun, hreset, fun readings => ?_,
    fun first second hsame => ?_⟩
  · refine ⟨_, _, Checked.mapM_eq fun value _ => happly value, hturns readings,
      ContinuousTrigger.events_answers_none .., fun e he => ?_,
      ContinuousTrigger.after_answers .., fun i v turn => ContinuousTrigger.events_answers_of_repeated,
      ContinuousTrigger.length_events_answers_le hle hordered⟩
    rw [ContinuousTrigger.events_answers_none] at he
    obtain ⟨v, hmem, rfl⟩ := List.mem_map.mp he
    obtain ⟨value, -, rfl⟩ := List.mem_map.mp ((List.destutter_sublist _ _).subset hmem)
    exact Event.lossless_of_lt (lt_of_le_of_lt ((hle value).trans hwidest) (by decide))
  · refine ⟨_, _, happly first.1, hturns [first, second], ?_⟩
    rw [happly, happly] at hsame
    rw [ContinuousTrigger.events_answers_none]
    simp [List.destutter_pair, Except.ok.inj hsame]

end Trigger

/-- A distance that counts for more when it is shorter. -/
def proximity : ContinuousConfig where
  input := { minInput := some 50, maxInput := some 550, invert := true }

/-- A hand that moves away, from nearer than the range to farther than it, at times that go back. -/
def recedingReadings : List (Nat × Nat) := [(10, 5), (40, 3), (300, 9), (301, 9), (700, 2)]

theorem proximity_reports_changes :
    proximity.validate = .ok () ∧ proximity.input.Fits ∧
      (∀ call ∈ [TriggerCall.evaluate 300 0], call.Fits) ∧
      (recedingReadings.map Prod.fst).Pairwise (· ≤ ·) ∧
      ∃ t t' log turns, (TriggerConfig.continuous proximity).build = .ok t ∧
        t.run [.evaluate 300 0] = .ok (t', log) ∧ t'.reset = t ∧
        t.turns (evaluations recedingReadings) = .ok turns ∧
        turns.flatMap TriggerTurn.events = [.update 127, .update 64, .update 0] ∧
        (turns.flatMap TriggerTurn.events).length ≤ 128 := by
  have hv : proximity.validate = .ok () := rfl
  have hfits : ∀ call ∈ [TriggerCall.evaluate 300 0], call.Fits := by simp [TriggerCall.Fits]
  have hrising : (recedingReadings.map Prod.fst).Pairwise (· ≤ ·) := by decide
  obtain ⟨t, t', log, hbuild, hrun, hreset, hstream, -⟩ :=
    Trigger.continuous_reports_changes hv (by decide) hfits
  obtain ⟨values, turns, hvalues, hturns, hevents, -, -, -, hcount⟩ := hstream recedingReadings
  have hfive : (recedingReadings.map Prod.fst).mapM proximity.input.apply =
      .ok [127, 127, 64, 64, 0] := rfl
  obtain rfl := Checked.ok_unique hvalues hfive
  exact ⟨hv, by decide, hfits, hrising, t, t', log, turns, hbuild, hrun, hreset, hturns, hevents,
    hcount (.inl hrising)⟩

end SensorEvents
