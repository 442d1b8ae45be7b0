import SensorEvents.Proofs.Conditioning.Tuning

/-!
# The frozen baseline

The baseline of a filter is what its sensor shows at rest. An evaluation first stores how far the
smoothed reading is above the baseline, and only then lets the baseline follow, if that distance is
below the freeze threshold that is set. Nothing else moves a baseline but to take it anew. So a touch
whose distances stay at or above the threshold leaves the baseline as it was for as long as it lasts,
whatever is polled too early or set meanwhile.
-/
namespace SensorEvents

/-- A call that was carried out, with the filter before it and after it. -/
structure TunedStep (σ : Type) where
  before : AdaptiveFilter σ
  call : TunedCall
  after : AdaptiveFilter σ

namespace TunedStep

variable {σ : Type}

/-- The step takes the baseline anew from one reading, as the first poll of a filter does that was
not seeded before it. -/
def reseeds (step : TunedStep σ) : Bool :=
  match step.call with
  | .call .seed => true
  | .call .resetBaseline => true
  | .call (.poll _) => !step.before.seeded
  | _ => false

/-- The step runs an evaluation: it is called for, or a poll is due. -/
def evaluates (step : TunedStep σ) : Bool :=
  match step.call with
  | .call .evaluate => true
  | .call (.poll now) => step.before.isDue now
  | _ => false

/-- The distance that is stored is below the threshold in force. -/
def Near (step : TunedStep σ) : Prop :=
  step.after.state.delta < step.before.params.freezeThreshold

/-- The distance that is stored is at or above the threshold in force. -/
def Far (step : TunedStep σ) : Prop :=
  step.before.params.freezeThreshold ≤ step.after.state.delta

instance (step : TunedStep σ) : Decidable step.Near := inferInstanceAs (Decidable (_ < _))

instance (step : TunedStep σ) : Decidable step.Far := inferInstanceAs (Decidable (_ ≤ _))

theorem Far.not_near {step : TunedStep σ} (h : step.Far) : ¬ step.Near := by
  intro hnear
  obtain ⟨hdelta, hthreshold⟩ := Single.isNaN_of_lt hnear
  unfold Near at hnear
  unfold Far at h
  rw [Single.lt_iff_exact hdelta hthreshold] at hnear
  rw [Single.le_iff_exact hthreshold hdelta] at h
  exact absurd hnear (not_lt.mpr h)

/-- Of a filter that was seeded, a poll does not take the baseline anew. -/
theorem call_of_reseeds {step : TunedStep σ} (hseeded : step.before.seeded = true)
    (h : step.reseeds = true) :
    step.call = .call .seed ∨ step.call = .call .resetBaseline := by
  obtain ⟨before, call, after⟩ := step
  cases call with
  | set setting => exact nomatch h
  | call c =>
    cases c with
    | seed => exact .inl rfl
    | resetBaseline => exact .inr rfl
    | poll now =>
      change (!before.seeded) = true at h
      rw [hseeded] at h
      exact nomatch h
    | evaluate => exact nomatch h

/-- The baseline after a step that does not take it anew. -/
def tracked (step : TunedStep σ) : Float32 :=
  if step.evaluates ∧ step.Near then
    FilterState.blend step.before.state.baseline step.after.state.smoothed
      step.before.params.baselineRate
  else
    step.before.state.baseline

end TunedStep

/-- The distance that an evaluation stores decides whether the baseline follows. -/
theorem FilterState.baseline_evaluate [Elementary] (p : FilterParams) (s : FilterState) :
    (s.evaluate p).baseline =
      if (s.evaluate p).delta < p.freezeThreshold then
        blend s.baseline (s.evaluate p).smoothed p.baselineRate
      else s.baseline := by
  obtain ⟨baseline, htrack⟩ := track_eq (p := p) (s := (s.smooth p).measure)
  have hdelta : (s.evaluate p).delta = (s.smooth p).measure.delta := by
    simp only [evaluate, htrack]
    rfl
  have hsmoothed : (s.evaluate p).smoothed = (s.smooth p).smoothed := by
    simp only [evaluate, htrack]
    rfl
  rw [hdelta, hsmoothed]
  change (((s.smooth p).measure).track p).baseline = _
  unfold track
  split_ifs <;> rfl

namespace AdaptiveFilter

section Settings

variable {σ : Type}

/-- No setting touches the state. -/
theorem state_change (f : AdaptiveFilter σ) (setting : FilterSetting) :
    (f.change setting).state = f.state ∧ (f.change setting).seeded = f.seeded := by
  cases setting <;> exact ⟨rfl, rfl⟩

end Settings

variable {σ : Type} [Elementary] {f g : AdaptiveFilter σ} {c : TunedCall}

/-- An evaluation of a filter that differs from the one before the step in its reading. -/
theorem baseline_evaluate (hparams : g.params = f.params)
    (hbaseline : g.state.baseline = f.state.baseline)
    (hevaluates : TunedStep.evaluates ⟨f, c, g.evaluate⟩ = true) :
    g.evaluate.state.baseline = TunedStep.tracked ⟨f, c, g.evaluate⟩ := by
  have hevaluate : g.evaluate.state.baseline = _ := FilterState.baseline_evaluate g.params g.state
  rw [hbaseline, hparams] at hevaluate
  rw [hevaluate]
  unfold TunedStep.tracked TunedStep.Near evaluate
  rw [hparams]
  by_cases hnear : (g.state.evaluate f.params).delta < f.params.freezeThreshold
  · rw [if_pos hnear, if_pos ⟨hevaluates, hnear⟩]
  · rw [if_neg hnear, if_neg fun h => hnear h.2]

variable [Source σ]

/-- The steps of calls and changes made one after the other. -/
def tunedSteps (f : AdaptiveFilter σ) : List TunedCall → List (TunedStep σ)
  | [] => []
  | call :: calls => ⟨f, call, f.tune call⟩ :: (f.tune call).tunedSteps calls

theorem poll_of_seeded (h : f.seeded = true) (now : Nat) :
    (f.poll now).2 = if f.isDue now then (f.reading now).evaluate else f := by
  simp only [poll, if_pos h]
  split_ifs <;> rfl

theorem baseline_tune (h : TunedStep.reseeds ⟨f, c, f.tune c⟩ = false) :
    (f.tune c).state.baseline = TunedStep.tracked ⟨f, c, f.tune c⟩ := by
  cases c with
  | set setting => exact congrArg FilterState.baseline (f.state_change setting).1
  | call c =>
    cases c with
    | seed => exact nomatch h
    | resetBaseline => exact nomatch h
    | evaluate => exact baseline_evaluate rfl rfl rfl
    | poll now =>
      have hseeded : f.seeded = true := by simpa [TunedStep.reseeds] using h
      have hpoll : f.tune (.call (.poll now)) = _ := poll_of_seeded hseeded now
      by_cases hdue : f.isDue now = true
      · rw [if_pos hdue] at hpoll
        rw [hpoll]
        exact baseline_evaluate rfl rfl hdue
      · rw [if_neg hdue] at hpoll
        rw [hpoll]
        unfold TunedStep.tracked TunedStep.evaluates
        rw [if_neg fun hstep => hdue hstep.1]

/-- No call takes back that a filter was seeded. -/
theorem seeded_tune (h : f.seeded = true) (c : TunedCall) : (f.tune c).seeded = true := by
  cases c with
  | set setting => exact (f.state_change setting).2.trans h
  | call c =>
    cases c with
    | seed => rfl
    | resetBaseline =>
      change f.resetBaseline.seeded = true
      unfold resetBaseline
      rw [if_pos h]
      exact h
    | evaluate => exact h
    | poll now =>
      change (f.poll now).2.seeded = true
      rw [poll_of_seeded h now]
      split_ifs <;> exact h

theorem tunedSteps_tracked {calls : List TunedCall} {step : TunedStep σ}
    (hmem : step ∈ f.tunedSteps calls) (hreseeds : step.reseeds = false) :
    step.after.state.baseline = step.tracked := by
  induction calls generalizing f with
  | nil => exact absurd hmem List.not_mem_nil
  | cons c calls ih =>
    rcases List.mem_cons.mp hmem with rfl | hmem
    · exact baseline_tune hreseeds
    · exact ih hmem

theorem tunedSteps_seeded (h : f.seeded = true) {calls : List TunedCall} {step : TunedStep σ}
    (hmem : step ∈ f.tunedSteps calls) : step.before.seeded = true := by
  induction calls generalizing f with
  | nil => exact absurd hmem List.not_mem_nil
  | cons c calls ih =>
    rcases List.mem_cons.mp hmem with rfl | hmem
    · exact h
    · exact ih (seeded_tune h c) hmem

/-- A baseline that calls have changed was changed by one of them. -/
theorem exists_step_of_baseline_ne {calls : List TunedCall}
    (hne : (f.tuneAll calls).state.baseline ≠ f.state.baseline) :
    ∃ step ∈ f.tunedSteps calls, step.after.state.baseline ≠ step.before.state.baseline := by
  induction calls generalizing f with
  | nil => exact absurd rfl hne
  | cons c calls ih =>
    by_cases hfirst : (f.tune c).state.baseline = f.state.baseline
    · obtain ⟨step, hmem, hstep⟩ := ih (hfirst.symm ▸ hne)
      exact ⟨step, List.mem_cons_of_mem _ hmem, hstep⟩
    · exact ⟨⟨f, c, f.tune c⟩, List.mem_cons_self, hfirst⟩

/-- Whatever is called or set and whenever: a step that does not take the baseline anew changes it
only if it runs an evaluation and the distance that this stores is below the threshold in force, and
then the baseline follows. So a stretch in which the baseline is not taken anew and every distance
that is stored is at or above the threshold in force ends with the baseline it began with, and one
that ends with another baseline has a step that took it anew or stored a distance below. Of a filter
that was seeded, only to seed it or to reset its baseline takes the baseline anew. -/
theorem baseline_frozen (f : AdaptiveFilter σ) (calls : List TunedCall) :
    (∀ step ∈ f.tunedSteps calls, step.reseeds = false →
      (step.after.state.baseline ≠ step.before.state.baseline →
        step.evaluates = true ∧ step.Near) ∧
      (step.evaluates = true → step.Near → step.after.state.baseline =
        FilterState.blend step.before.state.baseline step.after.state.smoothed
          step.before.params.baselineRate)) ∧
      ((∀ step ∈ f.tunedSteps calls, step.reseeds = false ∧ (step.evaluates = true → step.Far)) →
        (f.tuneAll calls).state.baseline = f.state.baseline) ∧
      ((f.tuneAll calls).state.baseline ≠ f.state.baseline →
        ∃ step ∈ f.tunedSteps calls,
          step.reseeds = true ∨ (step.evaluates = true ∧ step.Near)) ∧
      (f.seeded = true → ∀ step ∈ f.tunedSteps calls, step.reseeds = true →
        step.call = .call .seed ∨ step.call = .call .resetBaseline) := by
  have hchanges {step : TunedStep σ} (hmem : step ∈ f.tunedSteps calls)
      (hreseeds : step.reseeds = false)
      (hne : step.after.state.baseline ≠ step.before.state.baseline) :
      step.evaluates = true ∧ step.Near := by
    by_contra hkept
    rw [tunedSteps_tracked hmem hreseeds, TunedStep.tracked, if_neg hkept] at hne
    exact hne rfl
  refine ⟨fun step hmem hreseeds => ⟨hchanges hmem hreseeds, fun hevaluates hnear => ?_⟩,
    fun hfar => ?_, fun hne => ?_, fun hseeded step hmem hreseeds => ?_⟩
  · rw [tunedSteps_tracked hmem hreseeds, TunedStep.tracked, if_pos ⟨hevaluates, hnear⟩]
  · by_contra hne
    obtain ⟨step, hmem, hstep⟩ := exists_step_of_baseline_ne hne
    obtain ⟨hreseeds, hfrozen⟩ := hfar step hmem
    obtain ⟨hevaluates, hnear⟩ := hchanges hmem hreseeds hstep
    exact (hfrozen hevaluates).not_near hnear
  · obtain ⟨step, hmem, hstep⟩ := exists_step_of_baseline_ne hne
    cases hreseeds : step.reseeds with
    | true => exact ⟨step, hmem, .inl hreseeds⟩
    | false => exact ⟨step, hmem, .inr (hchanges hmem hreseeds hstep)⟩
  · exact TunedStep.call_of_reseeds (tunedSteps_seeded hseeded hmem) hreseeds

end AdaptiveFilter

/-- A touch that lasts: readings far above the baseline, with polls before their time, a direct
evaluation and settings in between. -/
def touchCalls : List TunedCall :=
  [.call (.poll 50), .call (.poll 60), .set (.freezeThreshold 20), .call (.poll 100),
    .call .evaluate, .set (.deltaMax 2000), .call (.poll 120), .call (.poll 150)]

/-- A filter at rest at 2000, whose first stage passes every reading on. -/
def touchedFilter : AdaptiveFilter Scripted :=
  AdaptiveFilter.seed
    { source := .ofList [2000, 3000, 2020, 3000], params := { smoothing := 1 } }

theorem touchedFilter_frozen :
    letI := Elementary.coarse
    (∀ step ∈ touchedFilter.tunedSteps touchCalls,
      step.reseeds = false ∧ (step.evaluates = true → step.Far)) ∧
      (touchedFilter.tuneAll touchCalls).state.baseline = Single.ofNat 2000 := by
  have hfar : ∀ step ∈ @AdaptiveFilter.tunedSteps _ .coarse _ touchedFilter touchCalls,
      step.reseeds = false ∧ (step.evaluates = true → step.Far) := by decide +kernel
  have hrest : touchedFilter.state.baseline = Single.ofNat 2000 := rfl
  obtain ⟨-, hfrozen, -⟩ := @AdaptiveFilter.baseline_frozen _ .coarse _ touchedFilter touchCalls
  exact ⟨hfar, (hfrozen hfar).trans hrest⟩

end SensorEvents
