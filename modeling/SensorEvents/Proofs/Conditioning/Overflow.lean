import SensorEvents.Proofs.Conditioning.Smoothing
import SensorEvents.Proofs.Scaling.Curve

/-!
# Where the adaptive filter loses its output

The first stage of the filter and its baseline only see readings and stay numbers for good. The
second stage sees the curve, and what is not a number stays in it: from an evaluation in which the
curve overflows until the filter is seeded again, its output is zero.
-/
namespace SensorEvents

open Single (exact Within ceiling)

namespace FilterState

variable {p : FilterParams} {s : FilterState}

/-- An evaluation before its output. -/
def followed (p : FilterParams) (s : FilterState) : FilterState := ((s.smooth p).measure).track p

/-- The signal that the curve of an evaluation is applied to. -/
def signal (p : FilterParams) (s : FilterState) : Float32 :=
  Single.limit ((s.followed p).delta / p.deltaMax) 0 1

/-- What is known of a filter at any time. -/
structure Steady (s : FilterState) : Prop where
  raw : Within ceiling s.raw
  smoothed : Within ceiling s.smoothed
  baseline : Within ceiling s.baseline
  mapped : s.mappedSmoothed.isNaN = false → Within ceiling s.mappedSmoothed
  lost : s.mappedSmoothed.isNaN = true → s.lastOutput = 0

theorem resting_steady (reading lastUpdate : Nat) : (resting reading lastUpdate).Steady := by
  have hseed := Single.ofNat_within reading
  exact ⟨hseed, hseed, hseed, fun _ => Single.within_zero.mono Single.ceiling_pos.le, fun _ => rfl⟩

theorem measure_delta_finite (hsmoothed : Within ceiling s.smoothed)
    (hbaseline : Within ceiling s.baseline) : s.measure.delta.isFinite = true := by
  refine Single.isFinite_larger ?_ Single.isFinite_zero
  have hrounds := Single.sub_rounds hsmoothed.finite hbaseline.finite
  refine (hrounds.finite (Single.abs_rounded_lt ?_)).1
  have hlow := sub_le_sub hsmoothed.nonneg hbaseline.le_top
  have hhigh := sub_le_sub hsmoothed.le_top hbaseline.nonneg
  refine (abs_le.mpr ⟨?_, hhigh⟩).trans_lt (by norm_num [ceiling])
  linarith

/-- Only the baseline follows. -/
theorem track_eq : ∃ baseline, s.track p = { s with baseline } := by
  unfold track
  split_ifs
  · exact ⟨_, rfl⟩
  · exact ⟨_, rfl⟩

theorem track_baseline (hv : p.validate = .ok ()) (hsmoothed : Within ceiling s.smoothed)
    (hbaseline : Within ceiling s.baseline) : Within ceiling (s.track p).baseline := by
  obtain ⟨-, -, hrate, -⟩ := FilterParams.validate_eq_ok.mp hv
  unfold track
  split_ifs
  · exact blend_within hrate hbaseline hsmoothed
  · exact hbaseline

/-- The first stage and the baseline stay below the ceiling, and the curve gets a signal. -/
theorem followed_spec (hv : p.validate = .ok ()) (h : s.Steady) :
    (s.followed p).raw = s.raw ∧ (s.followed p).mappedSmoothed = s.mappedSmoothed ∧
      Within ceiling (s.followed p).smoothed ∧ Within ceiling (s.followed p).baseline ∧
      Within 1 (s.signal p) := by
  obtain ⟨-, hsmoothing, -, -, ⟨hmax, hpos⟩, -⟩ := FilterParams.validate_eq_ok.mp hv
  have hsmoothed : Within ceiling (s.smooth p).smoothed :=
    blend_within hsmoothing h.smoothed h.raw
  have hdelta := measure_delta_finite (s := s.smooth p) hsmoothed h.baseline
  have hbaseline : Within ceiling (s.followed p).baseline :=
    track_baseline (s := (s.smooth p).measure) hv hsmoothed h.baseline
  have hne : exact p.deltaMax ≠ 0 := by
    rw [Single.lt_iff_exact Single.isNaN_zero (Single.isNaN_of_isFinite hmax),
      Single.exact_zero] at hpos
    exact hpos.ne'
  have hsignal := Single.limit_within (Single.div_rounds hdelta hmax hne).number
  obtain ⟨baseline, htrack⟩ := track_eq (p := p) (s := (s.smooth p).measure)
  unfold signal
  unfold followed at hbaseline ⊢
  rw [htrack] at hbaseline ⊢
  exact ⟨rfl, rfl, hsmoothed, hbaseline, hsignal⟩

/-- A signal that is scaled to the output is below the ceiling. -/
theorem scaled_within {x : Float32} (hx : Within 1 x) {bits : Nat} (hbits : bits ≤ maxPrecision) :
    Within ceiling (x * Single.ofNat (BitDepth.largest bits)) := by
  have hlargest : BitDepth.largest bits ≤ 2 ^ 16 := by
    unfold maxPrecision at hbits
    rw [BitDepth.largest, if_neg (by omega), Nat.one_shiftLeft]
    exact (Nat.sub_le ..).trans (Nat.pow_le_pow_right (by norm_num) hbits)
  obtain ⟨hfinite, hexact⟩ := Single.exact_ofNat (hlargest.trans (by norm_num))
  have hscale : (0 : ℚ) ≤ BitDepth.largest bits := Nat.cast_nonneg _
  have hrounds := Single.mul_rounds hx.finite hfinite
  rw [hexact] at hrounds
  refine (hrounds.within (mul_nonneg hx.nonneg hscale) hfinite ?_).mono ?_
  · rw [hexact]
    exact mul_le_of_le_one_left hscale hx.le_top
  · have hcast : (BitDepth.largest bits : ℚ) ≤ 2 ^ 16 := by exact_mod_cast hlargest
    rw [hexact]
    exact hcast.trans (by norm_num [ceiling])

theorem blend_isNaN {old new w : Float32} (h : old.isNaN = true ∨ new.isNaN = true) :
    (blend old new w).isNaN = true := by
  unfold blend
  rcases h with h | h
  · exact Single.isNaN_add_left (Single.isNaN_mul_left h)
  · exact Single.isNaN_add_right (Single.isNaN_mul_left h)

/-- A step keeps what is known of the filter, and its output is lost just if it was lost or the
curve overflows. -/
theorem evaluate_spec [Elementary] (hr : Elementary.Regular) (hv : p.validate = .ok ())
    (h : s.Steady) :
    (s.evaluate p).Steady ∧ Within 1 (s.signal p) ∧
      ((s.evaluate p).mappedSmoothed.isNaN = true ↔
        p.curve.Overflows (s.signal p) ∨ s.mappedSmoothed.isNaN = true) := by
  obtain ⟨⟨-, hprecision⟩, -, -, hweight, -, -, hcurve⟩ := FilterParams.validate_eq_ok.mp hv
  obtain ⟨hraw, hbefore, hsmoothed, hbaseline, hsignal⟩ := followed_spec hv h
  obtain ⟨hnan, hnumber⟩ := ResponseCurve.apply_spec hr hcurve hsignal
  have hmapped : (s.evaluate p).mappedSmoothed =
      blend s.mappedSmoothed (p.curve.apply (s.signal p) *
        Single.ofNat (BitDepth.largest p.precision)) p.outputSmoothing :=
    congrArg (blend · _ _) hbefore
  have hkept (hnone : ¬ (p.curve.Overflows (s.signal p) ∨ s.mappedSmoothed.isNaN = true)) :
      Within ceiling (s.evaluate p).mappedSmoothed := by
    obtain ⟨hfits, hbefore'⟩ := not_or.mp hnone
    rw [hmapped]
    exact blend_within hweight (h.mapped (Bool.eq_false_iff.mpr hbefore'))
      (scaled_within (hnumber hfits) hprecision)
  have hlost (hsome : p.curve.Overflows (s.signal p) ∨ s.mappedSmoothed.isNaN = true) :
      (s.evaluate p).mappedSmoothed.isNaN = true := by
    rw [hmapped]
    refine blend_isNaN (hsome.symm.imp_right ?_)
    intro hover
    exact Single.isNaN_mul_left (hnan.mpr hover)
  have hiff : (s.evaluate p).mappedSmoothed.isNaN = true ↔
      p.curve.Overflows (s.signal p) ∨ s.mappedSmoothed.isNaN = true := by
    refine ⟨?_, hlost⟩
    intro hnot
    by_contra hnone
    exact ne_true_of_eq_false (Single.isNaN_of_isFinite (hkept hnone).finite) hnot
  refine ⟨⟨hraw ▸ h.raw, hsmoothed, hbaseline, ?_, ?_⟩, hsignal, hiff⟩
  · intro hnot
    exact hkept (mt hiff.mpr (Bool.eq_false_iff.mp hnot))
  · intro hnot
    exact Single.nearestNat_of_isNaN hnot _

end FilterState

/-- What a filter is told. -/
inductive FilterCall where
  | seed
  | resetBaseline
  | poll (now : Nat)
  | evaluate

/-- What a filter does in answer. -/
inductive FilterStep where
  | seeded
  /-- The curve is applied to `signal`. -/
  | evaluated (signal : Float32)

/-- The curve overflows in some evaluation after which there is no seeding. -/
def Spoils [Elementary] (c : ResponseCurve) (steps : List FilterStep) : Prop :=
  ∃ early signal late, steps = early ++ .evaluated signal :: late ∧ c.Overflows signal ∧
    .seeded ∉ late

theorem spoils_append [Elementary] {c : ResponseCurve} {steps later : List FilterStep} :
    Spoils c (steps ++ later) ↔ Spoils c later ∨ (Spoils c steps ∧ .seeded ∉ later) := by
  constructor
  · rintro ⟨early, signal, late, heq, hover, hlate⟩
    rcases List.append_eq_append_iff.mp heq with ⟨as, -, hlater⟩ | ⟨bs, hsteps, hrest⟩
    · exact Or.inl ⟨as, signal, late, hlater, hover, hlate⟩
    · rcases List.cons_eq_append_iff.mp hrest with ⟨rfl, hlater⟩ | ⟨rest, rfl, rfl⟩
      · exact Or.inl ⟨[], signal, late, hlater, hover, hlate⟩
      · rw [List.mem_append, not_or] at hlate
        exact Or.inr ⟨⟨early, signal, rest, hsteps, hover, hlate.1⟩, hlate.2⟩
  · rintro (⟨early, signal, late, rfl, hover, hlate⟩ | ⟨⟨early, signal, late, rfl, hover, hlate⟩, h⟩)
    · exact ⟨steps ++ early, signal, late, (List.append_assoc ..).symm, hover, hlate⟩
    · exact ⟨early, signal, late ++ later, List.append_assoc .., hover,
        fun hmem => (List.mem_append.mp hmem).elim hlate h⟩

theorem spoils_evaluated [Elementary] {c : ResponseCurve} {signal : Float32} :
    Spoils c [.evaluated signal] ↔ c.Overflows signal := by
  constructor
  · rintro ⟨early, signal', late, heq, hover, -⟩
    rcases List.cons_eq_append_iff.mp heq with ⟨rfl, hrest⟩ | ⟨rest, rfl, hrest⟩
    · obtain ⟨heq, -⟩ := List.cons.inj hrest
      obtain rfl := FilterStep.evaluated.inj heq
      exact hover
    · simp at hrest
  · intro hover
    exact ⟨[], signal, [], rfl, hover, List.not_mem_nil⟩

theorem not_spoils_of_no_evaluation [Elementary] {c : ResponseCurve} {steps : List FilterStep}
    (h : ∀ signal, .evaluated signal ∉ steps) : ¬ Spoils c steps := by
  rintro ⟨early, signal, late, rfl, -, -⟩
  exact h signal (List.mem_append_right early List.mem_cons_self)

namespace AdaptiveFilter

section

variable {σ : Type} [Source σ] [Elementary]

/-- Carry out a call. -/
def call (f : AdaptiveFilter σ) : FilterCall → AdaptiveFilter σ
  | .seed => f.seed
  | .resetBaseline => f.resetBaseline
  | .poll now => (f.poll now).2
  | .evaluate => f.evaluate

/-- Carry out calls one after the other. -/
def run (f : AdaptiveFilter σ) : List FilterCall → AdaptiveFilter σ
  | [] => f
  | call :: calls => (f.call call).run calls

/-- A filter with the reading of a poll. -/
def reading (f : AdaptiveFilter σ) (now : Nat) : AdaptiveFilter σ :=
  let (reading, source) := Source.read f.source
  { f with source, state := { f.state with lastUpdate := now, raw := Single.ofNat reading } }

/-- The steps of a poll of a filter that was seeded. -/
def stepsWhenDue (f : AdaptiveFilter σ) (now : Nat) : List FilterStep :=
  if f.isDue now then [.evaluated ((f.reading now).state.signal f.params)] else []

/-- The steps of a call. -/
def steps (f : AdaptiveFilter σ) : FilterCall → List FilterStep
  | .seed => [.seeded]
  | .resetBaseline => [.seeded]
  | .poll now =>
    if f.seeded then f.stepsWhenDue now else .seeded :: f.seed.stepsWhenDue now
  | .evaluate => [.evaluated (f.state.signal f.params)]

/-- The steps of calls one after the other. -/
def history (f : AdaptiveFilter σ) : List FilterCall → List FilterStep
  | [] => []
  | call :: calls => f.steps call ++ (f.call call).history calls

end

variable {σ : Type} [Elementary]

/-- What steps do to a filter. -/
structure Carried (f f' : AdaptiveFilter σ) (steps : List FilterStep) : Prop where
  params : f'.params = f.params
  steady : f'.state.Steady
  signals : ∀ signal, .evaluated signal ∈ steps → Within 1 signal
  lost : f'.state.mappedSmoothed.isNaN = true ↔
    Spoils f.params.curve steps ∨ (f.state.mappedSmoothed.isNaN = true ∧ .seeded ∉ steps)

variable {f f₁ f' : AdaptiveFilter σ}

theorem Carried.trans {steps later : List FilterStep} (h : Carried f f₁ steps)
    (h' : Carried f₁ f' later) : Carried f f' (steps ++ later) := by
  refine ⟨h'.params.trans h.params, h'.steady, ?_, ?_⟩
  · intro signal hmem
    exact (List.mem_append.mp hmem).elim (h.signals signal) (h'.signals signal)
  · rw [h'.lost, h.lost, h.params, spoils_append, List.mem_append, not_or, or_and_right, or_assoc,
      and_assoc]

/-- A filter that is changed in no more than its reading. -/
theorem Carried.of_reading (hparams : f'.params = f.params) (hsteady : f'.state.Steady)
    (hmapped : f'.state.mappedSmoothed = f.state.mappedSmoothed) : Carried f f' [] := by
  refine ⟨hparams, hsteady, nofun, ?_⟩
  have hnone : ¬ Spoils f.params.curve [] :=
    not_spoils_of_no_evaluation fun _ => List.not_mem_nil
  rw [hmapped]
  exact ⟨fun hbefore => Or.inr ⟨hbefore, List.not_mem_nil⟩,
    fun h => (h.resolve_left hnone).1⟩

/-- A filter that is seeded. -/
theorem Carried.of_resting {reading lastUpdate : Nat} (hparams : f'.params = f.params)
    (hstate : f'.state = .resting reading lastUpdate) : Carried f f' [.seeded] := by
  have hnone : ¬ Spoils f.params.curve [.seeded] :=
    not_spoils_of_no_evaluation fun _ => by simp
  have hzero : f'.state.mappedSmoothed.isNaN = false := hstate ▸ Single.isNaN_zero
  refine ⟨hparams, hstate ▸ FilterState.resting_steady .., fun _ h => by simp at h, ?_⟩
  refine iff_of_false (ne_true_of_eq_false hzero) ?_
  rintro (hspoils | ⟨-, hseeded⟩)
  · exact hnone hspoils
  · exact hseeded List.mem_cons_self

/-- An evaluation. -/
theorem evaluate_carried (hr : Elementary.Regular) (hv : f.params.validate = .ok ())
    (h : f.state.Steady) : Carried f f.evaluate [.evaluated (f.state.signal f.params)] := by
  obtain ⟨hsteady, hsignal, hlost⟩ := FilterState.evaluate_spec hr hv h
  refine ⟨rfl, hsteady, ?_, ?_⟩
  · intro signal hmem
    obtain rfl := FilterStep.evaluated.inj (List.mem_singleton.mp hmem)
    exact hsignal
  · rw [spoils_evaluated]
    simpa [evaluate] using hlost

variable [Source σ]

theorem reading_carried (h : f.state.Steady) (now : Nat) : Carried f (f.reading now) [] := by
  have hraw := Single.ofNat_within (Source.read f.source).1
  exact .of_reading rfl ⟨hraw, h.smoothed, h.baseline, h.mapped, h.lost⟩ rfl

/-- A poll of a filter that was seeded. -/
theorem due_carried (hr : Elementary.Regular) (hv : f.params.validate = .ok ())
    (h : f.state.Steady) (now : Nat) :
    Carried f (if f.isDue now then (f.reading now).evaluate else f) (f.stepsWhenDue now) := by
  unfold stepsWhenDue
  split_ifs
  · have hreading := reading_carried h now
    exact hreading.trans (evaluate_carried hr hv hreading.steady)
  · exact .of_reading rfl h rfl

theorem call_carried (hr : Elementary.Regular) (hv : f.params.validate = .ok ())
    (h : f.state.Steady) (c : FilterCall) : Carried f (f.call c) (f.steps c) := by
  have hseed : Carried f f.seed [.seeded] := .of_resting rfl rfl
  cases c with
  | seed => exact hseed
  | resetBaseline =>
    change Carried f f.resetBaseline [.seeded]
    unfold resetBaseline
    split_ifs
    · exact .of_resting rfl rfl
    · exact hseed
  | poll now =>
    have hpoll : f.call (.poll now) =
        let g := if f.seeded then f else f.seed
        if g.isDue now then (g.reading now).evaluate else g := by
      simp only [call, poll]
      split_ifs <;> rfl
    cases hseeded : f.seeded with
    | true =>
      have hdue := due_carried hr hv h now
      simpa only [hpoll, steps, hseeded, if_true] using hdue
    | false =>
      have hdue := hseed.trans (due_carried (f := f.seed) hr hv hseed.steady now)
      simpa only [hpoll, steps, hseeded, Bool.false_eq_true, if_false, List.singleton_append] using hdue
  | evaluate => exact evaluate_carried hr hv h

theorem run_carried (hr : Elementary.Regular) (hv : f.params.validate = .ok ())
    (h : f.state.Steady) (calls : List FilterCall) : Carried f (f.run calls) (f.history calls) := by
  induction calls generalizing f with
  | nil => exact .of_reading rfl h rfl
  | cons c calls ih =>
    have hcall := call_carried hr hv h c
    exact hcall.trans (ih (hcall.params ▸ hv) hcall.steady)

/-- After any calls to a filter with accepted settings: the curve is between zero and one in every
evaluation in which it does not overflow, and not a number where it does; the smoothed output is
not a number just if there was such an evaluation and no seeding since; and then the output is
zero. -/
theorem lost_iff_overflow (hr : Elementary.Regular) {p : FilterParams} (hv : p.validate = .ok ())
    (source : σ) (calls : List FilterCall) :
    ∃ f, build source p = .ok f ∧
      (∀ signal, .evaluated signal ∈ f.history calls →
        ((p.curve.apply signal).isNaN = true ↔ p.curve.Overflows signal) ∧
        (¬ p.curve.Overflows signal → 0 ≤ p.curve.apply signal ∧ p.curve.apply signal ≤ 1)) ∧
      ((f.run calls).state.mappedSmoothed.isNaN = true ↔ Spoils p.curve (f.history calls)) ∧
      ((f.run calls).state.mappedSmoothed.isNaN = true → (f.run calls).value = 0) := by
  have hcurve := (FilterParams.validate_eq_ok.mp hv).2.2.2.2.2.2
  have hzero := Single.within_zero.mono Single.ceiling_pos.le
  have hsteady : ({} : FilterState).Steady := ⟨hzero, hzero, hzero, fun _ => hzero, fun _ => rfl⟩
  obtain ⟨-, hafter, hsignals, hlost⟩ :=
    run_carried (f := { source, params := p }) hr hv hsteady calls
  refine ⟨_, build_eq hv source, ?_, ?_, hafter.lost⟩
  · intro signal hmem
    obtain ⟨hnan, hwithin⟩ := ResponseCurve.apply_spec hr hcurve (hsignals signal hmem)
    exact ⟨hnan, fun hfits => Single.within_one_iff.mp (hwithin hfits)⟩
  · rw [hlost]
    have hnumber : ¬ (({} : FilterState).mappedSmoothed.isNaN = true) :=
      ne_true_of_eq_false Single.isNaN_zero
    exact or_iff_left fun hbefore => hnumber hbefore.1

end AdaptiveFilter

/-- Functions that are right at the few arguments of the run below; the exponential is infinite where
it exceeds single precision. -/
@[reducible] def Elementary.coarse : Elementary where
  exp x := if x < 88.72284 then 1 else Float32.ofBits 0x7F800000
  ln _ := 0
  power x _ := x

theorem Elementary.coarse_regular : @Elementary.Regular .coarse := by
  refine @Elementary.Regular.mk .coarse ?_ (fun _ _ _ => Single.isFinite_zero) ?_
  · intro x _
    change (if x < 88.72284 then (1 : Float32) else Float32.ofBits 0x7F800000).isNaN = false
    split_ifs
    · exact Single.isNaN_one
    · decide +kernel
  · intro x gamma hlow _ _ _
    exact (Single.isNaN_of_le hlow).2

/-- A steep curve, and a first stage that passes every reading on. -/
def steep : FilterParams where
  pollInterval := 0
  smoothing := 1
  curve := .exponential 100

theorem steep_accepted : steep.validate = .ok () :=
  Checked.eq_ok_of_isOk (by decide +kernel)

theorem steep_lost_iff_overflow :
    @Elementary.Regular .coarse ∧ steep.validate = .ok () ∧
      letI := Elementary.coarse
      ∃ f, AdaptiveFilter.build (Scripted.ofList [0, 4000, 0]) steep = .ok f ∧
        ((f.run [.seed, .poll 10]).state.mappedSmoothed.isNaN = true ↔
          Spoils steep.curve (f.history [.seed, .poll 10])) :=
  letI := Elementary.coarse
  have ⟨f, hbuild, _, hlost, _⟩ := AdaptiveFilter.lost_iff_overflow Elementary.coarse_regular
    steep_accepted (Scripted.ofList [0, 4000, 0]) [.seed, .poll 10]
  ⟨Elementary.coarse_regular, steep_accepted, f, hbuild, hlost⟩

/-- One touch at full travel, and the output is lost although the sensor rests again. -/
theorem steep_output_lost :
    letI := Elementary.coarse
    let f : AdaptiveFilter Scripted := { source := .ofList [0, 4000, 0], params := steep }
    let touched := f.run [.seed, .poll 10]
    let rested := f.run [.seed, .poll 10, .poll 20, .poll 30]
    steep.validate = .ok () ∧ touched.state.mappedSmoothed.isNaN = true ∧
      rested.state.delta = 0 ∧ rested.state.mappedSmoothed.isNaN = true ∧ rested.value = 0 :=
  ⟨steep_accepted, by decide +kernel⟩

end SensorEvents
