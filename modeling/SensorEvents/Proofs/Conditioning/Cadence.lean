import SensorEvents.Proofs.Conditioning.Faultless

/-!
# The cadence of polls

A poll before its time leaves everything as it was. One that is due takes one reading, makes one
step with it, and is the time from which the next interval counts. A new baseline takes a reading
and leaves that time alone. All this is of a conditioner that was started; the first poll of a
filter that was not takes a reading more.
-/
namespace SensorEvents

/-- Every reading moves a source on by one. -/
def Source.Counts {σ : Type} [Source σ] (position : σ → Nat) : Prop :=
  ∀ s, position (Source.read s).2 = position s + 1

/-- Least time between polls. -/
def ConditionerConfig.pollInterval : ConditionerConfig → Nat
  | adaptive params => params.pollInterval
  | direct params => params.pollInterval

/-- An evaluation does not touch the time. -/
theorem FilterState.lastUpdate_evaluate [Elementary] (p : FilterParams) (s : FilterState) :
    (s.evaluate p).lastUpdate = s.lastUpdate := by
  simp only [evaluate, project, track]
  split_ifs <;> rfl

namespace Conditioner

section Clock

variable {σ : Type}

def source : Conditioner σ → σ
  | adaptive filter => filter.source
  | direct reader => reader.source

def lastUpdate : Conditioner σ → Nat
  | adaptive filter => filter.state.lastUpdate
  | direct reader => reader.lastUpdate

/-- Whether the interval has passed at `now`. -/
def isDue (c : Conditioner σ) (now : Nat) : Bool := now - c.lastUpdate ≥ c.config.pollInterval

/-- A filter was seeded; a direct reader has nothing to start. -/
def Started : Conditioner σ → Prop
  | adaptive filter => filter.seeded = true
  | direct _ => True

/-- The settings of a direct reader were accepted; a filter takes a reading with any settings. -/
def Readable : Conditioner σ → Prop
  | adaptive _ => True
  | direct reader => reader.params.validate = .ok ()

theorem atRest_fresh (config : ConditionerConfig) (s : σ) :
    (config.atRest s).source = s ∧ (config.atRest s).lastUpdate = 0 := by
  cases config with
  | adaptive => exact ⟨rfl, rfl⟩
  | direct => exact ⟨rfl, rfl⟩

variable [Source σ]

/-- A filter that was never seeded is seeded by its first poll. -/
def awake : Conditioner σ → Conditioner σ
  | adaptive filter => adaptive (if filter.seeded then filter else filter.seed)
  | direct reader => direct reader

end Clock

variable {σ : Type} [Source σ] {c c' : Conditioner σ} {now : Nat}

/-! ## Starts and baselines -/

theorem begin_started (c : Conditioner σ) : c.begin.Started := by
  cases c with
  | adaptive => exact rfl
  | direct => exact trivial

theorem begin_readable (h : c.Readable) : c.begin.Readable := by
  cases c with
  | adaptive => exact trivial
  | direct => exact h

theorem awake_of_started (h : c.Started) : c.awake = c := by
  cases c with
  | adaptive filter => exact congrArg adaptive (if_pos h)
  | direct => rfl

/-- What no reading changes of a source, no start and no new baseline changes. -/
theorem source_kept {β : Type} {g : σ → β} (h : ∀ s, g (Source.read s).2 = g s)
    (c : Conditioner σ) : g c.begin.source = g c.source ∧ g c.resetBaseline.source = g c.source ∧
      g c.awake.source = g c.source := by
  cases c with
  | adaptive filter =>
    obtain ⟨source, params, state, seeded⟩ := filter
    have hread := h source
    cases seeded with
    | true => exact ⟨hread, hread, rfl⟩
    | false => exact ⟨hread, hread, hread⟩
  | direct => exact ⟨rfl, rfl, rfl⟩

/-- Once a filter was seeded the time of its last poll is that of a poll; until then it is zero, as it
is after the seeding. -/
theorem awake_keeps (c : Conditioner σ) : c.awake.Started ∧ c.awake.config = c.config ∧
    (c.Readable → c.awake.Readable) ∧
    (c.Started ∨ c.lastUpdate = 0 → c.awake.lastUpdate = c.lastUpdate) := by
  cases c with
  | adaptive filter =>
    obtain ⟨source, params, state, seeded⟩ := filter
    cases seeded with
    | true => exact ⟨rfl, rfl, id, fun _ => rfl⟩
    | false => exact ⟨rfl, rfl, id, fun h => (h.resolve_left Bool.false_ne_true).symm⟩
  | direct => exact ⟨trivial, rfl, id, fun _ => rfl⟩

/-- A new baseline keeps the time from which the interval counts. -/
theorem resetBaseline_keeps (c : Conditioner σ) : c.resetBaseline.Started ∧
    (c.Readable → c.resetBaseline.Readable) ∧
    (c.Started ∨ c.lastUpdate = 0 → c.resetBaseline.lastUpdate = c.lastUpdate) := by
  cases c with
  | adaptive filter =>
    obtain ⟨source, params, state, seeded⟩ := filter
    cases seeded with
    | true => exact ⟨rfl, id, fun _ => rfl⟩
    | false => exact ⟨rfl, id, fun h => (h.resolve_left Bool.false_ne_true).symm⟩
  | direct => exact ⟨trivial, id, fun _ => rfl⟩

/-- A new baseline does not change when polls are due. -/
theorem isDue_resetBaseline (h : c.Started ∨ c.lastUpdate = 0) (now : Nat) :
    c.resetBaseline.isDue now = c.isDue now := by
  obtain ⟨-, -, hupdate⟩ := c.resetBaseline_keeps
  unfold isDue
  rw [hupdate h, config_resetBaseline]

/-! ## Steps -/

variable [Elementary]

/-- One reading at `now`, and one step with it. -/
def advance (c : Conditioner σ) (now : Nat) : Checked (Conditioner σ) :=
  match c with
  | adaptive filter =>
    let (reading, source) := Source.read filter.source
    let state := { filter.state with lastUpdate := now, raw := Single.ofNat reading }
    .ok (adaptive { filter with source, state }.evaluate)
  | direct reader => do
    let (reading, source) := Source.read reader.source
    let raw := min reading (BitDepth.largest reader.params.inputBits)
    let value ← BitDepth.rescale raw reader.params.inputBits reader.params.precision
    return direct { reader with source, raw, value, lastUpdate := now }

/-- What a step keeps, and what it sets. -/
structure Advanced (c : Conditioner σ) (now : Nat) (c' : Conditioner σ) : Prop where
  config : c'.config = c.config
  source : c'.source = (Source.read c.source).2
  lastUpdate : c'.lastUpdate = now
  started : c.Started → c'.Started
  readable : c.Readable → c'.Readable
  value_le : c'.value ≤ BitDepth.largest c.precision

/-- A step has a result, and a value of the precision that is set. -/
theorem advance_eq_ok (h : c.Readable) (now : Nat) :
    ∃ c', c.advance now = .ok c' ∧ Advanced c now c' := by
  cases c with
  | adaptive filter =>
    exact ⟨_, rfl, rfl, rfl, FilterState.lastUpdate_evaluate _ _, id, id, Single.nearestNat_le _ _⟩
  | direct reader =>
    obtain ⟨hin, hpos, hle⟩ := DirectParams.validate_eq_ok.mp h
    unfold maxPrecision at hle
    obtain ⟨value, hvalue, hrange⟩ := BitDepth.rescale_le hin
      (show 0 < reader.params.precision ∧ reader.params.precision ≤ 32 by omega)
      (Nat.min_le_right (Source.read reader.source).1 _)
    refine ⟨direct { reader with
      source := (Source.read reader.source).2
      raw := min (Source.read reader.source).1 (BitDepth.largest reader.params.inputBits)
      value
      lastUpdate := now }, ?_, rfl, rfl, rfl, id, id, hrange⟩
    simp only [advance, hvalue, Checked.ok_bind]
    rfl

/-- A poll is a step when it is due, and nothing before. -/
theorem poll_eq (h : c.Started ∨ c.lastUpdate = 0) (now : Nat) :
    c.poll now = if c.isDue now then
        (fun c' => (some (decide (c'.value ≠ c.awake.value)), c')) <$> c.awake.advance now
      else .ok (none, c.awake) := by
  cases c with
  | adaptive filter =>
    obtain ⟨source, params, state, seeded⟩ := filter
    change _ = if AdaptiveFilter.isDue ⟨source, params, state, seeded⟩ now = true then _ else _
    cases seeded with
    | true =>
      simp only [poll, AdaptiveFilter.poll, if_true]
      cases AdaptiveFilter.isDue _ now <;> rfl
    | false =>
      -- The poll asks before the seeding and again after it; the time is zero both times.
      have hfresh : state.lastUpdate = 0 := h.resolve_left Bool.false_ne_true
      have hdue : AdaptiveFilter.isDue ⟨source, params, state, false⟩ now =
          (AdaptiveFilter.seed ⟨source, params, state, false⟩).isDue now := by
        simp only [AdaptiveFilter.isDue, hfresh]
        rfl
      simp only [poll, AdaptiveFilter.poll, hdue, Bool.false_eq_true, if_false]
      cases AdaptiveFilter.isDue _ now <;> rfl
  | direct reader =>
    change (reader.poll now >>= fun polled =>
      .ok (if reader.isDue now then some polled.1 else none, direct polled.2)) =
        if reader.isDue now = true then _ else _
    unfold DirectReader.poll advance
    split_ifs
    · dsimp only [awake]
      cases BitDepth.rescale _ reader.params.inputBits reader.params.precision <;> rfl
    · rfl

/-! ## Any calls -/

/-- What a conditioner is told between starts. -/
inductive PollCall where
  | poll (now : Nat)
  | resetBaseline

/-- An entry of the log of a conditioner. -/
structure PollEntry (σ : Type) where
  call : PollCall
  before : Conditioner σ
  /-- What a poll answered. -/
  outcome : Option Bool := none
  after : Conditioner σ

/-- Carry out a call and log it. -/
def carryOut (c : Conditioner σ) : PollCall → Checked (PollEntry σ)
  | .poll now => do
    let (outcome, after) ← c.poll now
    return { call := .poll now, before := c, outcome, after }
  | .resetBaseline => .ok { call := .resetBaseline, before := c, after := c.resetBaseline }

/-- Carry out calls one after the other. -/
def log (c : Conditioner σ) : List PollCall → Checked (List (PollEntry σ))
  | [] => .ok []
  | call :: calls => do
    let entry ← c.carryOut call
    let later ← entry.after.log calls
    return entry :: later

/-- What a poll at `now` does to a conditioner that was started. -/
structure Polled (before : Conditioner σ) (now : Nat) (outcome : Option Bool)
    (after : Conditioner σ) : Prop where
  early_iff : outcome = none ↔ now - before.lastUpdate < before.config.pollInterval
  unchanged : outcome = none → after = before
  advanced : ∀ changed, outcome = some changed → before.advance now = .ok after ∧
    after.source = (Source.read before.source).2 ∧ after.lastUpdate = now ∧
      (changed = true ↔ after.value ≠ before.value)
  counted : ∀ position, Source.Counts position →
    (outcome.isSome ↔ position after.source = position before.source + 1)

/-- What an entry says: a poll is one as above, and a new baseline leaves alone when polls are
due. -/
def PollEntry.Regular (e : PollEntry σ) : Prop :=
  match e.call with
  | .poll now => Polled e.before now e.outcome e.after
  | .resetBaseline => ∀ now, e.after.isDue now = e.before.isDue now

/-- The time of a poll that was due. -/
def PollEntry.dueTime? (e : PollEntry σ) : Option Nat :=
  match e.call, e.outcome with
  | .poll now, some _ => some now
  | _, _ => none

/-- The times of the polls that were due, in order. -/
def dueTimes (entries : List (PollEntry σ)) : List Nat := entries.filterMap PollEntry.dueTime?

/-- A poll of a conditioner that was started has a result. -/
theorem poll_polled (hstarted : c.Started) (hreadable : c.Readable) (now : Nat) :
    ∃ outcome c', c.poll now = .ok (outcome, c') ∧ Polled c now outcome c' ∧
      c'.config = c.config ∧ c'.Started ∧ c'.Readable := by
  have hearly : c.isDue now = false ↔ now - c.lastUpdate < c.config.pollInterval := by
    rw [isDue, decide_eq_false_iff_not, Nat.not_le]
  rw [poll_eq (.inl hstarted), awake_of_started hstarted]
  cases hdue : c.isDue now with
  | false =>
    refine ⟨none, c, rfl, ⟨iff_of_true rfl (hearly.mp hdue), fun _ => rfl, nofun, ?_⟩, rfl,
      hstarted, hreadable⟩
    intro position _
    simp
  | true =>
    obtain ⟨c', hadvance, hadvanced⟩ := advance_eq_ok hreadable now
    refine ⟨some (decide (c'.value ≠ c.value)), c', ?_, ⟨?_, nofun, ?_, ?_⟩, hadvanced.config,
      hadvanced.started hstarted, hadvanced.readable hreadable⟩
    · rw [if_pos rfl, hadvance]
      rfl
    · rw [← hearly, hdue]
      exact iff_of_false nofun nofun
    · intro changed hchanged
      obtain rfl := Option.some.inj hchanged
      exact ⟨hadvance, hadvanced.source, hadvanced.lastUpdate, decide_eq_true_iff⟩
    · intro position hcounts
      rw [hadvanced.source, hcounts]
      exact iff_of_true rfl rfl

/-- A call has a result, and its entry is regular. Whenever a poll is due, the interval has passed
since the last one. -/
theorem carryOut_eq_ok (hstarted : c.Started) (hreadable : c.Readable) (call : PollCall) :
    ∃ e, c.carryOut call = .ok e ∧ e.Regular ∧ e.after.config = c.config ∧ e.after.Started ∧
      e.after.Readable ∧
      ((e.dueTime? = none ∧ e.after.lastUpdate = c.lastUpdate) ∨
        (e.dueTime? = some e.after.lastUpdate ∧
          c.config.pollInterval ≤ e.after.lastUpdate - c.lastUpdate)) := by
  cases call with
  | poll now =>
    obtain ⟨outcome, c', hpoll, hpolled, hconfig, hstarted', hreadable'⟩ :=
      poll_polled hstarted hreadable now
    refine ⟨{ call := .poll now, before := c, outcome, after := c' }, ?_, hpolled, hconfig,
      hstarted', hreadable', ?_⟩
    · rw [carryOut, hpoll]
      rfl
    · cases outcome with
      | none => exact .inl ⟨rfl, congrArg lastUpdate (hpolled.unchanged rfl)⟩
      | some changed =>
        obtain ⟨-, -, hupdate, -⟩ := hpolled.advanced changed rfl
        have hdue := mt hpolled.early_iff.mpr nofun
        dsimp only
        rw [hupdate]
        exact .inr ⟨rfl, Nat.not_lt.mp hdue⟩
  | resetBaseline =>
    obtain ⟨hstarted', hreadable', hupdate⟩ := c.resetBaseline_keeps
    exact ⟨_, rfl, isDue_resetBaseline (.inl hstarted), c.config_resetBaseline, hstarted',
      hreadable' hreadable, .inl ⟨rfl, hupdate (.inl hstarted)⟩⟩

/-- Of two polls that were due, the second is at least an interval later. -/
def Spaced (interval : Nat) (times : List Nat) : Prop :=
  times.IsChain fun t₁ t₂ => 0 < interval → t₁ + interval ≤ t₂

/-- Every entry of a log is regular, and the polls that were due keep the interval, from the time
of the last one on. -/
theorem log_eq_ok (hstarted : c.Started) (hreadable : c.Readable) (calls : List PollCall) :
    ∃ entries, c.log calls = .ok entries ∧ (∀ e ∈ entries, e.Regular) ∧
      Spaced c.config.pollInterval (c.lastUpdate :: dueTimes entries) := by
  induction calls generalizing c with
  | nil => exact ⟨[], rfl, List.forall_mem_nil _, .singleton _⟩
  | cons call calls ih =>
    obtain ⟨e, hcall, hregular, hconfig, hstarted', hreadable', hdue⟩ :=
      carryOut_eq_ok hstarted hreadable call
    obtain ⟨entries, hlog, hregulars, hspaced⟩ := ih hstarted' hreadable'
    refine ⟨e :: entries, ?_, List.forall_mem_cons.mpr ⟨hregular, hregulars⟩, ?_⟩
    · simp only [log, hcall, hlog, Checked.ok_bind]
      rfl
    rw [hconfig] at hspaced
    unfold dueTimes
    rcases hdue with ⟨hnone, hupdate⟩ | ⟨hsome, hlater⟩
    · rw [List.filterMap_cons_none hnone, ← hupdate]
      exact hspaced
    · rw [List.filterMap_cons_some hsome]
      exact hspaced.cons_cons fun hpos => by omega

end Conditioner

end SensorEvents
