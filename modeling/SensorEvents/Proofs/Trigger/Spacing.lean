import SensorEvents.Proofs.Trigger.Calls

/-!
# Transitions keep their distance

A gate remembers when it was last marked, and a log says when a transition was last applied. The
two agree through every evaluation, setter and reset, so that the gate that lets a transition pass
has measured the time since the transition before it. No order of times is assumed.
-/
namespace SensorEvents

/-- A gate is ready if its interval has passed since the last transition. -/
theorem Debounce.ready_iff {d : Debounce} {now : Nat} :
    d.ready now = true ↔ ∀ last ∈ d.lastChange, d.interval = 0 ∨ last + d.interval ≤ now := by
  unfold ready
  cases d.lastChange with
  | none => simp
  | some last =>
    simp only [ge_iff_le, decide_eq_true_eq, Option.mem_def, Option.some.injEq, forall_eq']
    omega

/-- When the last transition was applied, after a log. -/
def lastAfter (last : Option Nat) : List LogEntry → Option Nat
  | [] => last
  | .applied p :: log => lastAfter (some p.time) log
  | .reset :: log => lastAfter none log

/-- Every transition comes its interval after the one before it. -/
def SpacedFrom (last : Option Nat) : List LogEntry → Prop
  | [] => True
  | .applied p :: log =>
    (∀ time ∈ last, p.interval = 0 ∨ time + p.interval ≤ p.time) ∧ SpacedFrom (some p.time) log
  | .reset :: log => SpacedFrom none log

/-- The stage after a log in which every transition leaves the stage that was reached. -/
def stageAfter? (rest stage : Stage) : List LogEntry → Option Stage
  | [] => some stage
  | .applied p :: log =>
    if p.before = stage ∧ p.after ≠ stage then stageAfter? rest p.after log else none
  | .reset :: log => stageAfter? rest rest log

variable {last : Option Nat} {log later : List LogEntry}

theorem lastAfter_append : lastAfter last (log ++ later) = lastAfter (lastAfter last log) later := by
  induction log generalizing last with
  | nil => rfl
  | cons entry log ih => cases entry <;> exact ih

theorem spacedFrom_append :
    SpacedFrom last (log ++ later) ↔ SpacedFrom last log ∧ SpacedFrom (lastAfter last log) later := by
  induction log generalizing last with
  | nil => simp [SpacedFrom, lastAfter]
  | cons entry log ih =>
    cases entry with
    | applied p => simp only [List.cons_append, SpacedFrom, lastAfter, ih, and_assoc]
    | reset => simp only [List.cons_append, SpacedFrom, lastAfter, ih]

theorem stageAfter?_append (rest stage : Stage) :
    stageAfter? rest stage (log ++ later) =
      (stageAfter? rest stage log).bind fun s => stageAfter? rest s later := by
  induction log generalizing stage with
  | nil => rfl
  | cons entry log ih =>
    cases entry with
    | applied p =>
      simp only [List.cons_append, stageAfter?]
      split_ifs
      · exact ih p.after
      · rfl
    | reset => exact ih rest

/-- Neighbours of a spaced log are spaced. -/
theorem SpacedFrom.neighbours {early late : List LogEntry} {p q : Passage}
    (h : SpacedFrom last (early ++ .applied p :: .applied q :: late)) :
    q.interval = 0 ∨ p.time + q.interval ≤ q.time := by
  obtain ⟨-, -, hq, -⟩ := spacedFrom_append.mp h
  exact hq p.time rfl

theorem lastAfter_eq_none (h : ∀ p, log.getLast? ≠ some (.applied p)) : lastAfter none log = none := by
  rcases List.eq_nil_or_concat' log with rfl | ⟨early, entry, rfl⟩
  · rfl
  · rw [lastAfter_append]
    cases entry with
    | applied p => exact absurd List.getLast?_concat (h p)
    | reset => rfl

namespace Trigger

variable {t t₁ t' : Trigger}

/-- A trigger has come from one to another by what is logged. -/
structure Logged (t t' : Trigger) (log : List LogEntry) : Prop where
  gated : t'.Gated
  rest : t'.reset.stage = t.reset.stage
  last : t'.gate.lastChange = lastAfter t.gate.lastChange log
  spaced : SpacedFrom t.gate.lastChange log
  stages : stageAfter? t.reset.stage t.stage log = some t'.stage

theorem Logged.trans (h : Logged t t₁ log) (h' : Logged t₁ t' later) :
    Logged t t' (log ++ later) := by
  refine ⟨h'.gated, h'.rest.trans h.rest, ?_, ?_, ?_⟩
  · rw [lastAfter_append, ← h.last]
    exact h'.last
  · rw [spacedFrom_append, ← h.last]
    exact ⟨h.spaced, h'.spaced⟩
  · rw [stageAfter?_append, h.stages, Option.bind_some, ← h.rest]
    exact h'.stages

/-- Nothing was applied. -/
theorem Logged.of_same (h : t'.Gated) (hrest : t'.reset.stage = t.reset.stage)
    (hlast : t'.gate.lastChange = t.gate.lastChange) (hstage : t'.stage = t.stage) :
    Logged t t' [] :=
  ⟨h, hrest, hlast, trivial, congrArg some hstage.symm⟩

/-- A transition that the gate lets pass. -/
theorem Logged.of_passage (h : t.Gated) {now : Nat} (hready : t.gate.ready now = true)
    (hconfig : t'.config = t.config) (hgate : t'.gate = t.gate.mark now)
    (hrest : t'.reset.stage = t.reset.stage) (hstage : t'.stage ≠ t.stage) :
    Logged t t' [.applied ⟨t.stage, t'.stage, now, t.config.debounce⟩] := by
  refine ⟨⟨⟨?_, ?_⟩, ?_⟩, hrest, ?_, ?_, ?_⟩
  · rw [hconfig]
    exact h.sound.accepted
  · rw [hconfig]
    exact h.sound.fits
  · rw [hconfig, hgate]
    exact h.interval
  · rw [hgate]
    rfl
  · rw [Debounce.ready_iff, h.interval] at hready
    exact ⟨hready, trivial⟩
  · exact if_pos ⟨rfl, hstage⟩

theorem reset_logged (h : t.Gated) : Logged t t.reset [.reset] := by
  refine ⟨reset_gated h, ?_, ?_, trivial, rfl⟩
  · cases t <;> rfl
  · cases t <;> rfl

theorem change_logged (h : t.Gated) {setting : TriggerSetting} (hf : setting.Fits)
    (hchange : t.change setting = .ok t') : Logged t t' [] := by
  have hadjusted := change_adjusted h hf hchange
  exact .of_same hadjusted.gated hadjusted.rest hadjusted.last hadjusted.stage

/-- The transitions of an evaluation are logged as the gate allows them. -/
theorem settle_logged {t last : VelocityTrigger} (h : (velocity t).Gated) (value now : Nat)
    {fuel : Nat} {emitted emitted' : Emitted}
    (hsettle : VelocityTrigger.settle value now fuel t emitted = .ok (last, emitted')) :
    Logged (velocity t) (velocity last) ((t.passages value now fuel).map .applied) := by
  induction fuel generalizing t emitted with
  | zero =>
    obtain ⟨rfl, -⟩ := Prod.mk.inj (Except.ok.inj hsettle)
    exact .of_same h rfl rfl rfl
  | succ fuel ih =>
    obtain ⟨r, hstep, hr⟩ := VelocityTrigger.step?_eq h.sound.accepted value now
    unfold VelocityTrigger.settle at hsettle
    unfold VelocityTrigger.passages
    rw [hstep] at hsettle ⊢
    cases hr with
    | rest _ =>
      obtain ⟨rfl, -⟩ := Prod.mk.inj (Except.ok.inj hsettle)
      exact .of_same h rfl rfl rfl
    | @move next e _ hready hmove =>
      have hpassage : Logged (velocity t) (velocity (t.moved next now)) _ :=
        .of_passage h hready rfl rfl rfl (by simpa [stage] using hmove.phase_ne)
      exact hpassage.trans (ih hpassage.gated hsettle)

/-- What an evaluation does, and what its value asks for. -/
structure Evaluated (t : Trigger) (value now : Nat) (last : Trigger) (emitted : Emitted)
    (passages : List Passage) (asked : Bool) : Prop where
  evaluate_eq : t.evaluate value now = .ok (last, emitted)
  passages_eq : t.passages value now = .ok passages
  asks_eq : t.asks value now = .ok asked
  logged : Logged t last (passages.map .applied)
  refused : asked = true → t.gate.ready now = false → last = t ∧ emitted = .none
  passed : asked = true → t.gate.ready now = true → passages ≠ []

/-- A gate that is not ready keeps an evaluation from doing anything. -/
theorem settle_refused {t last : VelocityTrigger} {value now : Nat} {emitted : Emitted}
    (hready : t.gate.ready now = false)
    (hsettle : VelocityTrigger.settle value now VelocityTrigger.cascade t .none =
      .ok (last, emitted)) : last = t ∧ emitted = .none := by
  have hstep : t.step? value now = .ok none := by
    unfold VelocityTrigger.step?
    cases t.next? value now with
    | none => rfl
    | some next => exact if_neg (ne_true_of_eq_false hready)
  unfold VelocityTrigger.cascade VelocityTrigger.settle at hsettle
  rw [hstep, Checked.ok_bind] at hsettle
  obtain ⟨rfl, rfl⟩ := Prod.mk.inj (Except.ok.inj hsettle)
  exact ⟨rfl, rfl⟩

/-- A gate that is ready lets an evaluation apply what its value asks for. -/
theorem passages_ne_nil {t : VelocityTrigger} (h : t.config.validate = .ok ()) {value now : Nat}
    (hasked : (t.next? value now).isSome = true) (hready : t.gate.ready now = true) :
    t.passages value now VelocityTrigger.cascade ≠ [] := by
  obtain ⟨r, hstep, hr⟩ := VelocityTrigger.step?_eq h value now
  unfold VelocityTrigger.cascade VelocityTrigger.passages
  rw [hstep]
  cases hr with
  | rest hrest =>
    rcases hrest with hnone | hrefused
    · rw [hnone] at hasked
      exact Bool.noConfusion hasked
    · exact Bool.noConfusion (hready.symm.trans hrefused)
  | move _ _ _ => exact List.cons_ne_nil _ _

theorem velocity_evaluated {t : VelocityTrigger} (h : (velocity t).Gated) (value now : Nat) :
    ∃ last emitted passages asked,
      Evaluated (velocity t) value now last emitted passages asked := by
  obtain ⟨v, last, emitted, happly, -, heval, -⟩ :=
    VelocityTrigger.evaluate_eq h.sound.accepted h.sound.fits value now
  have hsettle : VelocityTrigger.settle v now VelocityTrigger.cascade t .none =
      .ok (last, emitted) := by
    unfold VelocityTrigger.evaluate at heval
    rwa [happly, Checked.ok_bind] at heval
  refine ⟨velocity last, emitted, t.passages v now VelocityTrigger.cascade,
    (t.next? v now).isSome, ?_, ?_, ?_, settle_logged h v now hsettle, ?_, ?_⟩
  · simp only [evaluate, heval, Checked.ok_bind]
    rfl
  · simp only [passages, happly, Checked.ok_bind]
    rfl
  · simp only [asks, happly, Checked.ok_bind]
    rfl
  · intro _ hready
    obtain ⟨rfl, hnone⟩ := settle_refused hready hsettle
    exact ⟨rfl, hnone⟩
  · intro hasked hready
    exact passages_ne_nil h.sound.accepted hasked hready

/-- What becomes of a gate whose value asks for a turn, or not. -/
inductive Turn (t last : Trigger) (now : Nat) (emitted : Emitted) (before after asked : Bool) : Prop
  | none (hasked : asked = false) (hsame : after = before) (hgate : last.gate = t.gate)
  | refused (hready : t.gate.ready now = false) (hsame : after = before) (hlast : last = t)
      (hemitted : emitted = .none)
  | passed (hready : t.gate.ready now = true) (hturned : after ≠ before)
      (hgate : last.gate = t.gate.mark now)

section Turn

variable {last : Trigger} {now : Nat} {emitted : Emitted} {before after asked : Bool}

theorem Turn.logged (hturn : Turn t last now emitted before after asked) (h : t.Gated)
    (hconfig : last.config = t.config) (hrest : last.reset.stage = t.reset.stage)
    (hbefore : t.stage = .gate before) (hafter : last.stage = .gate after) :
    Logged t last ((Passage.turn before after now t.config.debounce).map .applied) := by
  unfold Passage.turn
  cases hturn with
  | none _ hsame hgate =>
    have hsound : last.Sound := ⟨hconfig ▸ h.sound.accepted, hconfig ▸ h.sound.fits⟩
    have hinterval : last.gate.interval = last.config.debounce := by
      rw [hgate, hconfig]
      exact h.interval
    rw [if_pos hsame]
    refine .of_same ⟨hsound, hinterval⟩ hrest (congrArg _ hgate) ?_
    rw [hbefore, hafter, hsame]
  | refused _ hsame hlast _ =>
    rw [if_pos hsame, hlast]
    exact .of_same h rfl rfl rfl
  | passed hready hturned hgate =>
    rw [if_neg hturned, List.map_singleton, ← hbefore, ← hafter]
    refine .of_passage h hready hconfig hgate hrest ?_
    rw [hbefore, hafter]
    intro heq
    exact hturned (Stage.gate.inj heq)

theorem Turn.refused_of_asked (hturn : Turn t last now emitted before after asked)
    (hasked : asked = true) (hready : t.gate.ready now = false) : last = t ∧ emitted = .none := by
  cases hturn with
  | none hnone _ _ => exact Bool.noConfusion (hasked.symm.trans hnone)
  | refused _ _ hlast hemitted => exact ⟨hlast, hemitted⟩
  | passed hpassed _ _ => exact Bool.noConfusion (hpassed.symm.trans hready)

theorem Turn.passed_of_asked (hturn : Turn t last now emitted before after asked)
    (hasked : asked = true) (hready : t.gate.ready now = true) (interval : Nat) :
    Passage.turn before after now interval ≠ [] := by
  cases hturn with
  | none hnone _ _ => exact Bool.noConfusion (hasked.symm.trans hnone)
  | refused hrefused _ _ _ => exact Bool.noConfusion (hready.symm.trans hrefused)
  | passed _ hturned _ =>
    unfold Passage.turn
    rw [if_neg hturned]
    exact List.cons_ne_nil _ _

/-- An evaluation of a trigger that is a gate. -/
theorem Turn.evaluated {value : Nat} (hturn : Turn t last now emitted before after asked)
    (h : t.Gated) (hevaluate : t.evaluate value now = .ok (last, emitted))
    (hpassages : t.passages value now =
      .ok (Passage.turn before after now t.config.debounce))
    (hasks : t.asks value now = .ok asked) (hconfig : last.config = t.config)
    (hrest : last.reset.stage = t.reset.stage) (hbefore : t.stage = .gate before)
    (hafter : last.stage = .gate after) :
    Evaluated t value now last emitted (Passage.turn before after now t.config.debounce) asked := by
  refine ⟨hevaluate, hpassages, hasks, hturn.logged h hconfig hrest hbefore hafter, ?_, ?_⟩
  · intro hasked hready
    exact hturn.refused_of_asked hasked hready
  · intro hasked hready
    exact hturn.passed_of_asked hasked hready _

end Turn

theorem threshold_evaluated {t : ThresholdTrigger} (h : (threshold t).Gated) (value now : Nat) :
    ∃ last emitted passages asked,
      Evaluated (threshold t) value now last emitted passages asked := by
  obtain ⟨v, happly, heval⟩ :=
    ThresholdTrigger.evaluate_eq h.sound.accepted h.sound.fits value now
  have hasks : (threshold t).asks value now = .ok (decide (t.wants v ≠ t.on)) := by
    simp only [asks, happly, ThresholdTrigger.wantsOn_eq_ok h.sound.accepted, Checked.ok_bind]
    rfl
  have hevaluate {last : ThresholdTrigger} {emitted : Emitted}
      (he : t.evaluate value now = .ok (last, emitted)) :
      (threshold t).evaluate value now = .ok (threshold last, emitted) ∧
        (threshold t).passages value now =
          .ok (Passage.turn t.on last.on now t.config.debounce) := by
    simp only [evaluate, passages, he, Checked.ok_bind]
    exact ⟨rfl, rfl⟩
  split_ifs at heval with hturn
  · obtain ⟨heval', hpassages⟩ := hevaluate heval
    have hturned : Turn (threshold t) (threshold (t.turned now)) now (.one t.turnEvent) t.on (!t.on)
        (decide (t.wants v ≠ t.on)) := .passed hturn.2 (Bool.not_ne_self t.on) rfl
    exact ⟨_, _, _, _, hturned.evaluated h heval' hpassages hasks rfl rfl rfl rfl⟩
  · obtain ⟨heval', hpassages⟩ := hevaluate heval
    have hkept : Turn (threshold t) (threshold t) now .none t.on t.on (decide (t.wants v ≠ t.on)) := by
      cases hready : t.gate.ready now with
      | false => exact .refused hready rfl rfl rfl
      | true => exact .none (decide_eq_false fun hwants => hturn ⟨hwants, hready⟩) rfl rfl
    exact ⟨_, _, _, _, hkept.evaluated h heval' hpassages hasks rfl rfl rfl rfl⟩

theorem pressure_evaluated {t : PressureTrigger} (h : (pressure t).Gated) (value now : Nat) :
    ∃ last emitted passages asked,
      Evaluated (pressure t) value now last emitted passages asked := by
  obtain ⟨v, last, emitted, happly, -, heval, hlast⟩ :=
    PressureTrigger.evaluate_eq h.sound.accepted h.sound.fits value now
  have hasks : (pressure t).asks value now = .ok (decide (t.wants v ≠ t.on)) := by
    simp only [asks, happly, Checked.ok_bind]
    rfl
  have hevaluate : (pressure t).evaluate value now = .ok (pressure last, emitted) := by
    simp only [evaluate, heval, Checked.ok_bind]
    rfl
  have hpassages : (pressure t).passages value now =
      .ok (Passage.turn t.on last.on now t.config.debounce) := by
    simp only [passages, heval, Checked.ok_bind]
    rfl
  have hconfig : (pressure last).config = (pressure t).config :=
    congrArg TriggerConfig.pressure hlast.config_eq
  have hturn : Turn (pressure t) (pressure last) now emitted t.on last.on
      (decide (t.wants v ≠ t.on)) := by
    cases hlast with
    | refused _ hready hlast hes =>
      exact .refused hready (congrArg _ hlast) (congrArg _ hlast) (Emitted.eq_none_iff.mpr hes)
    | stays hwants _ hon hgate _ => exact .none (decide_eq_false (not_not.mpr hwants)) hon hgate
    | turns _ hready _ hon hgate _ => exact .passed hready (hon ▸ Bool.not_ne_self t.on) hgate
  exact ⟨_, _, _, _, hturn.evaluated h hevaluate hpassages hasks hconfig rfl rfl rfl⟩

theorem continuous_evaluated {t : ContinuousTrigger} (h : (continuous t).Gated) (value now : Nat) :
    ∃ last emitted passages asked,
      Evaluated (continuous t) value now last emitted passages asked := by
  obtain ⟨v, -, -, heval⟩ := ContinuousTrigger.evaluate_eq h.sound.accepted h.sound.fits value
  obtain ⟨last, emitted, hevaluate, hconfig⟩ : ∃ last emitted,
      t.evaluate value = .ok (last, emitted) ∧ last.config = t.config := by
    split_ifs at heval
    · exact ⟨_, _, heval, rfl⟩
    · exact ⟨_, _, heval, rfl⟩
  have hconfig' : (continuous last).config = (continuous t).config :=
    congrArg TriggerConfig.continuous hconfig
  have hgated : (continuous last).Gated :=
    ⟨⟨hconfig' ▸ h.sound.accepted, hconfig' ▸ h.sound.fits⟩, rfl⟩
  refine ⟨continuous last, emitted, [], false, ?_, rfl, rfl, .of_same hgated rfl rfl rfl, nofun,
    nofun⟩
  simp only [evaluate, hevaluate, Checked.ok_bind]
  rfl

/-- An evaluation logs what it applies; it applies nothing, and does nothing, if the gate is not
ready for what the value asks. -/
theorem evaluated (h : t.Gated) (value now : Nat) :
    ∃ last emitted passages asked, t.Evaluated value now last emitted passages asked := by
  cases t with
  | velocity t => exact velocity_evaluated h value now
  | threshold t => exact threshold_evaluated h value now
  | pressure t => exact pressure_evaluated h value now
  | continuous t => exact continuous_evaluated h value now

theorem call_logged (h : t.Gated) {c : TriggerCall} (hf : c.Fits) :
    ∃ last log, t.call c = .ok (last, log) ∧ Logged t last log := by
  cases c with
  | evaluate value now =>
    obtain ⟨last, emitted, passages, asked, heval⟩ := evaluated h value now
    exact ⟨last, passages.map .applied,
      call_eq_ok.mpr (.evaluated heval.evaluate_eq heval.passages_eq), heval.logged⟩
  | set setting =>
    cases hchange : t.change setting with
    | ok last => exact ⟨last, [], call_eq_ok.mpr (.changed hchange), change_logged h hf hchange⟩
    | error _ => exact ⟨t, [], call_eq_ok.mpr (.refused hchange), .of_same h rfl rfl rfl⟩
  | reset => exact ⟨t.reset, [.reset], rfl, reset_logged h⟩

theorem run_logged (h : t.Gated) {calls : List TriggerCall} (hf : ∀ c ∈ calls, c.Fits) :
    ∃ last log, t.run calls = .ok (last, log) ∧ Logged t last log := by
  induction calls generalizing t with
  | nil => exact ⟨t, [], rfl, .of_same h rfl rfl rfl⟩
  | cons c calls ih =>
    obtain ⟨hc, hcalls⟩ := List.forall_mem_cons.mp hf
    obtain ⟨t₁, entries, hcall, hlogged⟩ := call_logged h hc
    obtain ⟨last, later, hrun, hlogged'⟩ := ih hlogged.gated hcalls
    exact ⟨last, entries ++ later, run_cons hcall hrun, hlogged.trans hlogged'⟩

section Keeps

variable {α : Type} {f : TriggerConfig → α}
  (hchange : ∀ {t t' : Trigger} {setting : TriggerSetting}, t.change setting = .ok t' →
    f t'.config = f t.config)

include hchange

/-- What no change of a setting touches, no call touches. -/
theorem call_keeps (h : t.Gated) {c : TriggerCall} {last : Trigger} {log : List LogEntry}
    (hcall : t.call c = .ok (last, log)) : f last.config = f t.config := by
  cases call_eq_ok.mp hcall with
  | evaluated heval _ => rw [(evaluate_reported h.sound heval).1]
  | changed hset => exact hchange hset
  | refused _ => rfl
  | reset => rw [config_reset]

theorem run_keeps (h : t.Gated) {calls : List TriggerCall} (hf : ∀ c ∈ calls, c.Fits)
    {last : Trigger} {log : List LogEntry} (hrun : t.run calls = .ok (last, log)) :
    f last.config = f t.config := by
  induction calls generalizing t log with
  | nil =>
    obtain ⟨rfl, -⟩ := Prod.mk.inj (Except.ok.inj hrun)
    rfl
  | cons c calls ih =>
    obtain ⟨hc, hcalls⟩ := List.forall_mem_cons.mp hf
    obtain ⟨t₁, entries, hcall, hlogged⟩ := call_logged h hc
    obtain ⟨last', later, hrun', -⟩ := run_logged hlogged.gated hcalls
    obtain ⟨rfl, -⟩ := Checked.ok_unique_pair hrun (run_cons hcall hrun')
    exact (ih hlogged.gated hcalls hrun').trans (call_keeps hchange h hcall)

end Keeps

theorem atRest_gated {c : TriggerConfig} (hv : c.validate = .ok ()) (hf : c.Fits) :
    c.atRest.Gated := by
  refine ⟨⟨?_, ?_⟩, ?_⟩
  · rw [c.config_atRest]
    exact hv
  · rw [c.config_atRest]
    exact hf
  · cases c <;> rfl

/-- From accepted settings, whatever is called and whenever: of two transitions with no reset
between them the later comes its interval after the earlier, or has no interval; an evaluation that
asks for a transition while the gate is not ready does nothing at all; and where no transition was
applied since the start or the last reset, one that is asked for is applied. -/
theorem transitions_spaced {c : TriggerConfig} (hv : c.validate = .ok ()) (hf : c.Fits)
    {calls : List TriggerCall} (hcalls : ∀ call ∈ calls, call.Fits) :
    ∃ t t' log, c.build = .ok t ∧ t.run calls = .ok (t', log) ∧
      stageAfter? t.stage t.stage log = some t'.stage ∧
      (∀ early p q late, log = early ++ .applied p :: .applied q :: late →
        q.interval = 0 ∨ p.time + q.interval ≤ q.time) ∧
      ∀ value now, ∃ asked passages,
        t'.asks value now = .ok asked ∧ t'.passages value now = .ok passages ∧
        (asked = true → t'.gate.ready now = false → t'.evaluate value now = .ok (t', .none)) ∧
        (asked = true → (∀ p, log.getLast? ≠ some (.applied p)) → passages ≠ []) := by
  have hrest : c.atRest.reset.stage = c.atRest.stage := by cases c <;> rfl
  have hlast : c.atRest.gate.lastChange = none := by cases c <;> rfl
  obtain ⟨t', log, hrun, hlogged⟩ := run_logged (atRest_gated hv hf) hcalls
  refine ⟨c.atRest, t', log, c.build_eq_ok hv, hrun, ?_, ?_, ?_⟩
  · rw [← hlogged.stages, hrest]
  · rintro early p q late rfl
    exact hlogged.spaced.neighbours
  · intro value now
    obtain ⟨last, emitted, passages, asked, heval⟩ := evaluated hlogged.gated value now
    refine ⟨asked, passages, heval.asks_eq, heval.passages_eq, ?_, ?_⟩
    · intro hasked hready
      obtain ⟨rfl, rfl⟩ := heval.refused hasked hready
      exact heval.evaluate_eq
    · intro hasked hnone
      have hfree : t'.gate.lastChange = none := by
        rw [hlogged.last, hlast]
        exact lastAfter_eq_none hnone
      refine heval.passed hasked (Debounce.ready_iff.mpr ?_)
      intro time hmem
      rw [hfree] at hmem
      exact absurd hmem (Option.not_mem_none time)

end Trigger

/-- A velocity trigger with a debounce. -/
def struckPad : TriggerConfig :=
  .velocity
    { minNote := 40, trigger := 60, velocity := { minPhysical := 0.5, maxPhysical := 2 }
      debounce := 20 }

/-- Calls out of order, with a change of the interval and a reset. -/
def struckPadCalls : List TriggerCall :=
  [.evaluate 90 50, .evaluate 90 30, .set (.debounce 5), .evaluate 90 60, .reset, .evaluate 50 10]

theorem struckPad_accepted : struckPad.validate = .ok () :=
  Checked.eq_ok_of_isOk (by decide +kernel)

theorem struckPad_transitions_spaced :
    struckPad.validate = .ok () ∧ struckPad.Fits ∧ (∀ call ∈ struckPadCalls, call.Fits) ∧
      ∃ t t' log, struckPad.build = .ok t ∧ t.run struckPadCalls = .ok (t', log) ∧
        ∀ early p q late, log = early ++ .applied p :: .applied q :: late →
          q.interval = 0 ∨ p.time + q.interval ≤ q.time := by
  have hfits : ∀ call ∈ struckPadCalls, call.Fits := by
    unfold struckPadCalls
    simp [TriggerCall.Fits, TriggerSetting.Fits]
  obtain ⟨t, t', log, hbuild, hrun, -, hspaced, -⟩ :=
    Trigger.transitions_spaced struckPad_accepted (by decide) hfits
  exact ⟨struckPad_accepted, by decide, hfits, t, t', log, hbuild, hrun, hspaced⟩

end SensorEvents
