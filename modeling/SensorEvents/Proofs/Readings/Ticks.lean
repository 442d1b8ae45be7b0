import SensorEvents.Proofs.Readings.Grammar
import SensorEvents.Readings.TraceTicks

/-!
# The ticks of a trace

The ticks begin at the first row, go on by the period and end at the last row, and each comes with
the latest row at or before it; one comes for each period that is begun, and one more.
`Trace.Paced` says so tick by tick; `TraceTicks.Underway` is what a step keeps of the ticks that are
still to come.
-/
namespace SensorEvents

namespace Trace

/-- The times of the rows do not go back, and are words. -/
structure Ordered (t : Trace) : Prop where
  times : (t.rows.map TraceRow.time).Pairwise (· ≤ ·)
  fits : ∀ row ∈ t.rows, row.time ≤ Checked.max64

/-- A row is the last of those at or before a time. -/
def Latest (t : Trace) (now : Nat) (row : TraceRow) : Prop :=
  ∃ before after, t.rows = before ++ row :: after ∧ row.time ≤ now ∧ ∀ later ∈ after, now < later.time

/-- Ticks from a time on to the end of a trace, each with its row. -/
inductive Paced (t : Trace) (period : Nat) : Nat → List Tick → Prop
  | last {row : TraceRow} (hrow : t.Latest t.last.time row) :
    Paced t period t.last.time [⟨t.last.time, row⟩]
  | next {now : Nat} {row : TraceRow} {ticks : List Tick} (hnow : now < t.last.time)
    (hrow : t.Latest now row) (hlater : Paced t period (min (now + period) t.last.time) ticks) :
    Paced t period now (⟨now, row⟩ :: ticks)

variable {t : Trace}

/-- What is read from a text is in order. -/
theorem ordered_of_ofText {text : String} (h : ofText text = .ok t) : t.Ordered := by
  obtain ⟨hreads, huniform⟩ := ofText_eq_ok.mp h
  refine ⟨huniform.ordered, ?_⟩
  refine (List.forall₂_and_left (p := fun row : TraceRow => row.time ≤ Checked.max64) t.rows _).mp
    (hreads.flip.imp fun row entry hrow => ⟨?_, hrow⟩) |>.1
  obtain ⟨⟨time, samples, -, ⟨digits, -, -, -, -, hfits⟩, -⟩, -⟩ := hrow
  exact hfits

theorem Latest.mem {now : Nat} {row : TraceRow} (h : t.Latest now row) : row ∈ t.rows := by
  obtain ⟨before, after, hrows, -⟩ := h
  rw [hrows]
  simp

theorem last_mem (t : Trace) : t.last ∈ t.rows := by
  unfold last rows
  cases hlast : t.later.getLast? with
  | none => exact List.mem_cons_self
  | some row => exact List.mem_cons_of_mem _ (List.mem_of_getLast? hlast)

theorem Ordered.first_le (h : t.Ordered) : ∀ row ∈ t.rows, t.first.time ≤ row.time := by
  have htimes := h.times
  unfold rows at htimes ⊢
  rw [List.map_cons, List.pairwise_cons] at htimes
  exact List.forall_mem_cons.mpr
    ⟨Nat.le_refl _, fun row hrow => htimes.1 _ (List.mem_map_of_mem hrow)⟩

theorem Ordered.le_last (h : t.Ordered) : ∀ row ∈ t.rows, row.time ≤ t.last.time := by
  have hlast : t.rows.dropLast ++ [t.last] = t.rows :=
    List.dropLast_append_getLast? _ List.getLast?_cons
  have htimes := h.times
  rw [← hlast, List.map_append, List.pairwise_append] at htimes
  intro row hrow
  rw [← hlast, List.mem_append, List.mem_singleton] at hrow
  rcases hrow with hrow | rfl
  · exact htimes.2.2 _ (List.mem_map_of_mem hrow) _ (List.mem_map_of_mem List.mem_cons_self)
  · exact Nat.le_refl _

/-- At the end of a trace its last row is current. -/
theorem Ordered.latest_last (h : t.Ordered) {row : TraceRow} (hrow : t.Latest t.last.time row) :
    row = t.last := by
  obtain ⟨before, after, hrows, -, hafter⟩ := hrow
  cases after with
  | nil =>
    have hlast : t.rows.getLast? = some row := by rw [hrows, List.getLast?_concat]
    exact Option.some.inj (hlast.symm.trans List.getLast?_cons)
  | cons other after =>
    have hother : other ∈ t.rows := by
      rw [hrows]
      simp
    exact absurd (hafter other List.mem_cons_self) (Nat.not_lt.mpr (h.le_last other hother))

namespace Paced

variable {period now : Nat} {ticks : List Tick}

theorem latest (h : Paced t period now ticks) : ∀ tick ∈ ticks, t.Latest tick.time tick.row := by
  induction h with
  | last hrow => exact List.forall_mem_singleton.mpr hrow
  | next hnow hrow hlater ih => exact List.forall_mem_cons.mpr ⟨hrow, ih⟩

/-- No tick comes before its time. -/
theorem now_le (hperiod : 0 < period) (h : Paced t period now ticks) :
    ∀ tick ∈ ticks, now ≤ tick.time := by
  induction h with
  | last => exact List.forall_mem_singleton.mpr (Nat.le_refl _)
  | next hnow hrow hlater ih =>
    refine List.forall_mem_cons.mpr ⟨Nat.le_refl _, fun tick htick => ?_⟩
    have := ih tick htick
    omega

/-- Every tick is later than those before it. -/
theorem increasing (hperiod : 0 < period) (h : Paced t period now ticks) :
    (ticks.map Tick.time).Pairwise (· < ·) := by
  induction h with
  | last => exact List.pairwise_singleton _ _
  | next hnow hrow hlater ih =>
    rw [List.map_cons, List.pairwise_cons]
    refine ⟨fun time htime => ?_, ih⟩
    obtain ⟨tick, htick, rfl⟩ := List.mem_map.mp htime
    have := hlater.now_le hperiod tick htick
    dsimp only
    omega

theorem head?_eq (h : Paced t period now ticks) : ticks.head?.map Tick.time = some now := by
  cases h <;> rfl

/-- The last tick comes with the last row. -/
theorem getLast?_eq (ho : t.Ordered) (h : Paced t period now ticks) :
    ticks.getLast? = some ⟨t.last.time, t.last⟩ := by
  induction h with
  | last hrow => rw [ho.latest_last hrow, List.getLast?_singleton]
  | next hnow hrow hlater ih => rw [List.getLast?_cons, ih, Option.getD_some]

/-- Every tick but the first is a period after the one before, or at the end. -/
theorem isChain (h : Paced t period now ticks) :
    ticks.IsChain fun tick next => next.time = min (tick.time + period) t.last.time := by
  induction h with
  | last => exact .singleton _
  | next hnow hrow hlater ih =>
    refine List.isChain_cons.mpr ⟨fun next hnext => ?_, ih⟩
    have hhead := hlater.head?_eq
    rw [hnext, Option.map_some] at hhead
    exact Option.some.inj hhead

/-- One tick for each period that is begun until the end, and one at the end. -/
theorem length_eq (hperiod : 0 < period) (h : Paced t period now ticks) :
    ticks.length = (t.last.time - now) ⌈/⌉ period + 1 := by
  induction h with
  | last => rw [Nat.sub_self, zero_ceilDiv, List.length_singleton]
  | @next now row ticks hnow hrow hlater ih =>
    have hleft : t.last.time - min (now + period) t.last.time = t.last.time - now - period := by
      omega
    rw [List.length_cons, ih, hleft, ← ceilDiv_eq_succ (Nat.sub_pos_of_lt hnow) hperiod]

/-- There are no more ticks than times from the first to the last. -/
theorem length_le (hperiod : 0 < period) (h : Paced t period now ticks) :
    ticks.length + now ≤ t.last.time + 1 := by
  induction h with
  | last => simp [Nat.add_comm]
  | next hnow hrow hlater ih =>
    rw [List.length_cons]
    omega

end Paced

end Trace

namespace TraceTicks

/-- All the ticks that are still to come, one by one. -/
inductive Yields : TraceTicks → List Tick → Prop
  | done {s : TraceTicks} (h : s.step? = none) : Yields s []
  | more {s rest : TraceTicks} {tick : Tick} {ticks : List Tick} (h : s.step? = some (tick, rest))
    (hlater : Yields rest ticks) : Yields s (tick :: ticks)

/-- Ticks of a trace that go on at `now`. -/
structure Underway (t : Trace) (period now : Nat) (s : TraceTicks) : Prop where
  period : s.period = period
  finish : s.finish = t.last.time
  next : s.next = some now
  rows : ∃ before, t.rows = before ++ s.current :: s.later
  reached : s.current.time ≤ now
  ahead : now ≤ t.last.time

/-- Of rows in order, those at or before `now` are gone through. -/
theorem seek_eq {now : Nat} {current : TraceRow} {later : List TraceRow} (h : current.time ≤ now)
    (horder : (later.map TraceRow.time).Pairwise (· ≤ ·)) :
    ∃ passed row after, seek now current later = (row, after) ∧
      current :: later = passed ++ row :: after ∧ row.time ≤ now ∧
      ∀ other ∈ after, now < other.time := by
  induction later generalizing current with
  | nil => exact ⟨[], current, [], rfl, rfl, h, List.forall_mem_nil _⟩
  | cons next later ih =>
    rw [List.map_cons, List.pairwise_cons] at horder
    unfold seek
    split_ifs with hnext
    · obtain ⟨passed, row, after, hseek, hrows, hrow, hafter⟩ := ih hnext horder.2
      exact ⟨current :: passed, row, after, hseek, congrArg (current :: ·) hrows, hrow, hafter⟩
    · refine ⟨[], current, next :: later, rfl, rfl, h, fun other hother => ?_⟩
      have hle : next.time ≤ other.time := by
        rcases List.mem_cons.mp hother with rfl | hother
        · exact Nat.le_refl _
        · exact horder.1 _ (List.mem_map_of_mem hother)
      omega

variable {t : Trace} {period now : Nat} {s : TraceTicks}

/-- The next tick is at its time, with its row; it is the last one, or the ticks go on after it. -/
theorem Underway.step_eq (h : Underway t period now s) (ho : t.Ordered) :
    ∃ row rest, s.step? = some (⟨now, row⟩, rest) ∧ t.Latest now row ∧
      (now = t.last.time ∧ rest.step? = none ∨
        now < t.last.time ∧ Underway t period (min (now + period) t.last.time) rest) := by
  obtain ⟨rfl, hfinish, hnext, ⟨before, hrows⟩, hreached, hahead⟩ := h
  have horder := ho.times
  rw [hrows, List.map_append, List.pairwise_append, List.map_cons, List.pairwise_cons] at horder
  obtain ⟨passed, row, after, hseek, hsplit, hrow, hafter⟩ := seek_eq hreached horder.2.1.2
  have hall : t.rows = (before ++ passed) ++ row :: after := by
    rw [hrows, hsplit, List.append_assoc]
  unfold step?
  simp only [hnext, Option.map_some, hseek, hfinish]
  refine ⟨row, _, rfl, ⟨before ++ passed, after, hall, hrow, hafter⟩, ?_⟩
  by_cases hend : t.last.time ≤ now
  · rw [if_pos hend]
    exact .inl ⟨Nat.le_antisymm hahead hend, rfl⟩
  · rw [if_neg hend]
    have hlast : t.last.time ≤ Checked.max64 := ho.fits _ t.last_mem
    have hsum : min (Checked.saturatingAdd64 now s.period) t.last.time =
        min (now + s.period) t.last.time := by
      unfold Checked.saturatingAdd64
      omega
    rw [hsum]
    refine .inr ⟨Nat.lt_of_not_le hend, rfl, rfl, rfl, ⟨before ++ passed, hall⟩, ?_,
      Nat.min_le_right _ _⟩
    dsimp only
    omega

/-- The ticks come to an end, and are those of the trace. -/
theorem Underway.exists_yields (hperiod : 0 < period) (h : Underway t period now s)
    (ho : t.Ordered) : ∃ ticks, s.Yields ticks ∧ t.Paced period now ticks := by
  -- Every tick but the last brings the end nearer.
  induction hleft : t.last.time - now using Nat.strong_induction_on generalizing now s with
  | _ left ih =>
    obtain ⟨row, rest, hstep, hrow, ⟨rfl, hdone⟩ | ⟨hnow, hrest⟩⟩ := h.step_eq ho
    · exact ⟨_, .more hstep (.done hdone), .last hrow⟩
    · obtain ⟨ticks, hyields, hpaced⟩ := ih _ (by omega) hrest rfl
      exact ⟨_, .more hstep hyields, .next hnow hrow hpaced⟩

end TraceTicks

/-- The ticks of a trace in order. -/
theorem Trace.Ordered.exists_ticks {t : Trace} (h : t.Ordered) (period : Nat) :
    ∃ ticks, (t.ticks period).Yields ticks ∧ t.Paced (max period 1) t.first.time ticks := by
  have hstart : TraceTicks.Underway t (max period 1) t.first.time (t.ticks period) :=
    ⟨rfl, rfl, rfl, ⟨[], rfl⟩, Nat.le_refl _, h.first_le _ t.last_mem⟩
  exact hstart.exists_yields (by omega) h

/-- Ticks that go through a trace from its first row to its last. -/
structure Trace.Covered (t : Trace) (period : Nat) (ticks : List Tick) : Prop where
  start : ticks.head?.map Tick.time = some t.first.time
  finish : ticks.getLast? = some ⟨t.last.time, t.last⟩
  increasing : (ticks.map Tick.time).Pairwise (· < ·)
  steps : ticks.IsChain fun tick next => next.time = min (tick.time + period) t.last.time
  latest : ∀ tick ∈ ticks, t.Latest tick.time tick.row
  count : ticks.length = (t.last.time - t.first.time) ⌈/⌉ period + 1

/-- The ticks of a trace that was read come to an end. They go from the first row to the last by the
period, the last step apart, each with the latest row at or before it, and there is one for each
period that is begun and one more. -/
theorem Trace.ticks_covered {text : String} {t : Trace} (h : ofText text = .ok t) (period : Nat) :
    ∃ ticks, (t.ticks period).Yields ticks ∧ t.Covered (max period 1) ticks := by
  have ho := ordered_of_ofText h
  have hperiod : 0 < max period 1 := by omega
  obtain ⟨ticks, hyields, hpaced⟩ := ho.exists_ticks period
  exact ⟨ticks, hyields, hpaced.head?_eq, hpaced.getLast?_eq ho, hpaced.increasing hperiod,
    hpaced.isChain, hpaced.latest, hpaced.length_eq hperiod⟩

/-- Two rows at one time, and a last row at the largest time there is, less than two periods
later. -/
theorem lateTrace_covered :
    ∃ t, Trace.ofText
        "18446744073709551600 1\n18446744073709551600 2\n18446744073709551615 3" = .ok t ∧
      ∃ ticks, (t.ticks 10).Yields ticks ∧ t.Covered 10 ticks ∧ ticks.length = 3 := by
  have hread : Trace.ofText
      "18446744073709551600 1\n18446744073709551600 2\n18446744073709551615 3" =
      .ok ⟨⟨18446744073709551600, [1]⟩,
        [⟨18446744073709551600, [2]⟩, ⟨18446744073709551615, [3]⟩]⟩ := by
    rfl
  obtain ⟨ticks, hyields, hcovered⟩ := Trace.ticks_covered hread 10
  exact ⟨_, hread, ticks, hyields, hcovered, hcovered.count⟩

end SensorEvents
