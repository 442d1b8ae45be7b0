import SensorEvents.Proofs.Config.Loading
import SensorEvents.Proofs.Readings.Ticks
import SensorEvents.Proofs.Replay.Sensors

/-!
# The course of a replay

A replay brings its engine to one tick of the trace after the other. Each time the clock shows the
time of the tick and every channel reads its own cell of the row of the tick: `Course` says this of
all ticks, and what is printed are the events of a course. It takes files that can be read and a
trace with all the columns that are asked for.
-/
namespace SensorEvents

/-- A channel for each entry, and every one reads the cell of a row in its own column, which the row
has. Reading it changes nothing, so it reads the same however often it is asked. -/
structure Engine.Fed (c : SensorConfig) (row : TraceRow) (e : Engine ColumnSource) : Prop where
  size : e.channels.length = c.channels.length
  reads : ∀ (i : Nat) (settings : ChannelConfig) (channel : Channel ColumnSource),
    c.channels[i]? = some settings → e.channels[i]? = some channel →
      ∃ cell, row.values[settings.columnAt i]? = some cell ∧
        Source.read channel.sensor = (cell, channel.sensor)

/-- The engine at a tick: its sensors have the row, and the clock was set. -/
def Engine.brought (e : Engine ColumnSource) (tick : Tick) : Engine ColumnSource :=
  { e.mapSources (ColumnSource.setRow tick.row.values) with clock := e.clock.set tick.time }

/-- The times and the channels of the events of a tick. -/
def ReplayTick.places (tick : ReplayTick) : List (Nat ×ₗ Nat) :=
  tick.events.map fun e => toLex (tick.time, e.channel)

/-- An engine that is brought to tick after tick, and the events of each. -/
inductive Replay.Course [Elementary] (c : SensorConfig) :
    Engine ColumnSource → List Tick → List ReplayTick → Prop
  | done (e : Engine ColumnSource) : Course c e [] []
  | tick {e e' : Engine ColumnSource} {tick : Tick} {ticks : List Tick} {events : List ChannelEvent}
    {outputs : List ReplayTick} (hclock : (e.brought tick).clock.now = tick.time)
    (hfed : (e.brought tick).Fed c tick.row) (htick : (e.brought tick).tick = .ok (e', events))
    (hlater : Course c e' ticks outputs) :
    Course c e (tick :: ticks) (⟨tick.time, events⟩ :: outputs)

/-! ## Columns -/

namespace SensorConfig

variable {c : SensorConfig}

theorem maxColumn?_eq_some (h : c.channels ≠ []) : ∃ column, c.maxColumn? = some column := by
  refine Option.ne_none_iff_exists'.mp fun hnone => h ?_
  have hcolumns : c.columns.length = 0 := by rw [List.max?_eq_none_iff.mp hnone, List.length_nil]
  rw [columns, List.length_map, placed, List.length_zipIdx] at hcolumns
  exact List.length_eq_zero_iff.mp hcolumns

theorem columnAt_le {column i : Nat} {settings : ChannelConfig} (h : c.maxColumn? = some column)
    (hi : c.channels[i]? = some settings) : settings.columnAt i ≤ column := by
  refine (List.max?_eq_some_iff.mp h).2 _ (List.mem_map.mpr ⟨(settings, i), ?_, rfl⟩)
  exact List.mem_zipIdx_iff_getElem?.mpr hi

end SensorConfig

/-- Sensors at columns that a row has read its cells. -/
theorem Engine.Wired.fed {c : SensorConfig} {row : TraceRow} {e : Engine ColumnSource}
    {column : Nat} (h : e.Wired c row.values) (hmax : c.maxColumn? = some column)
    (hwidth : column < row.values.length) : e.Fed c row := by
  refine ⟨h.size, fun i settings channel hsettings hchannel => ?_⟩
  have hlt : settings.columnAt i < row.values.length :=
    (SensorConfig.columnAt_le hmax hsettings).trans_lt hwidth
  refine ⟨_, List.getElem?_eq_getElem hlt, ?_⟩
  rw [(h.channels i settings channel hsettings hchannel).2]
  change ((row.values[settings.columnAt i]?.getD 0, _) : Nat × ColumnSource) = _
  rw [List.getElem?_eq_getElem hlt, Option.getD_some]

namespace Replay

variable [Elementary] {c : SensorConfig} {t : Trace}

/-! ## All ticks -/

/-- What holds of the rows and times of ticks on the way of an engine. -/
structure Ahead (c : SensorConfig) (e : Engine ColumnSource) (ticks : List Tick) : Prop where
  cells : ∃ column, c.maxColumn? = some column ∧ ∀ tick ∈ ticks, column < tick.row.values.length
  later : ∀ tick ∈ ticks, e.clock.now ≤ tick.time
  increasing : (ticks.map Tick.time).Pairwise (· < ·)

/-- An engine gets through ticks that are ahead of it. -/
theorem exists_course {row : List Nat} {e : Engine ColumnSource} {ticks : List Tick}
    (hwired : e.Wired c row) (h : Ahead c e ticks) : ∃ outputs, Course c e ticks outputs := by
  induction ticks generalizing e row with
  | nil => exact ⟨[], .done e⟩
  | cons tick ticks ih =>
    obtain ⟨⟨column, hmax, hcells⟩, hlater, hincreasing⟩ := h
    obtain ⟨hwidth, hcells⟩ := List.forall_mem_cons.mp hcells
    rw [List.map_cons, List.pairwise_cons] at hincreasing
    have hbrought : (e.brought tick).Wired c tick.row.values := hwired.setRow _ _
    have hclock : (e.brought tick).clock.now = tick.time :=
      Nat.max_eq_right (hlater tick List.mem_cons_self)
    obtain ⟨e', events, htick, hwired', hclock', -⟩ := hbrought.tick_eq_ok
    obtain ⟨outputs, hcourse⟩ := ih hwired' ⟨⟨column, hmax, hcells⟩, fun next hnext => by
      rw [hclock', hclock]
      exact Nat.le_of_lt (hincreasing.1 _ (List.mem_map_of_mem hnext)), hincreasing.2⟩
    exact ⟨_, .tick hclock (hbrought.fed hmax hwidth) htick hcourse⟩

namespace Course

variable {e : Engine ColumnSource} {ticks : List Tick} {outputs : List ReplayTick}

theorem times_eq (h : Course c e ticks outputs) :
    outputs.map ReplayTick.time = ticks.map Tick.time := by
  induction h with
  | done => rfl
  | tick _ _ _ _ ih => exact congrArg (_ :: ·) ih

/-- The events of a tick come in the order of the channels. -/
theorem channels_ordered (h : Course c e ticks outputs) :
    ∀ tick ∈ outputs, (tick.events.map ChannelEvent.channel).Pairwise (· ≤ ·) := by
  induction h with
  | done => exact List.forall_mem_nil _
  | tick _ _ htick _ ih =>
    obtain ⟨⟨channels, events⟩, hevents, hpair⟩ := Checked.bind_eq_ok.mp htick
    obtain ⟨-, rfl⟩ := Prod.mk.inj (Except.ok.inj hpair)
    exact List.forall_mem_cons.mpr ⟨(Engine.tickFrom_apart hevents).ordered, ih⟩

/-- Events come in the order of their times, and those of one time in the order of the channels. -/
theorem ordered (h : Course c e ticks outputs) (hticks : (ticks.map Tick.time).Pairwise (· < ·)) :
    (outputs.flatMap ReplayTick.places).Pairwise (· ≤ ·) := by
  rw [← h.times_eq, List.pairwise_map] at hticks
  refine List.pairwise_flatMap.mpr ⟨fun tick htick => ?_, hticks.imp fun hlt x hx y hy => ?_⟩
  · have hchannels := h.channels_ordered tick htick
    rw [List.pairwise_map] at hchannels
    refine List.pairwise_map.mpr (hchannels.imp fun hle => ?_)
    exact Prod.Lex.toLex_le_toLex.mpr (.inr ⟨rfl, hle⟩)
  · obtain ⟨a, -, rfl⟩ := List.mem_map.mp hx
    obtain ⟨b, -, rfl⟩ := List.mem_map.mp hy
    exact Prod.Lex.toLex_le_toLex.mpr (.inl hlt)

/-- A replay runs through the course of its ticks. -/
theorem runAfter_eq (h : Course c e ticks outputs) {left : TraceTicks} (hticks : left.Yields ticks)
    {count : Nat} (hcount : ticks.length ≤ count) (done : List ReplayTick) :
    runAfter done count ⟨e, left⟩ = .ok (done.reverse ++ outputs) := by
  induction h generalizing left count done with
  | done =>
    rw [List.append_nil]
    cases hticks with
    | done hnone =>
      cases count with
      | zero => rfl
      | succ count =>
        simp only [runAfter, step?, hnone, Checked.ok_bind]
        rfl
  | tick hclock hfed htick hlater ih =>
    cases hticks with
    | more hsome hrest =>
      rename_i e e' tick ticks events outputs rest
      obtain ⟨count, rfl⟩ : ∃ n, count = n + 1 := ⟨count - 1, by simp at hcount; omega⟩
      have hrun : runTick e tick = .ok (e', ⟨tick.time, events⟩) := by
        unfold runTick
        change ((e.brought tick).tick >>= _) = _
        rw [htick]
        rfl
      simp only [runAfter, step?, hsome, hrun, Checked.ok_bind, Checked.pure_eq_ok]
      rw [ih hrest (Nat.le_of_succ_le_succ hcount), List.reverse_cons, List.append_assoc]
      rfl

end Course

/-! ## The command -/

/-- The engine that a replay builds, at the first row. -/
def engineAtFirst (c : SensorConfig) (t : Trace) : Engine ColumnSource :=
  c.engineAtRest (Clock.set {} t.first.time) fun column => { column, row := t.first.values }

omit [Elementary] in
theorem startEngine_eq {column : Nat} (hv : c.validate = .ok ())
    (hmax : c.maxColumn? = some column) :
    startEngine c t = if t.columns ≤ column then .error (.missingColumn column t.columns)
      else .ok (engineAtFirst c t).begin := by
  have hbuild := c.buildEngine_eq (SensorConfig.validate_eq_ok.mp hv).accepted
    (Clock.set {} t.first.time) fun column => ({ column, row := t.first.values } : ColumnSource)
  unfold startEngine
  simp only [hmax, hbuild, ge_iff_le]
  split_ifs <;> rfl

omit [Elementary] in
theorem names_begin (e : Engine ColumnSource) : e.begin.names = e.names := by
  unfold Engine.names Engine.begin
  rw [List.map_map]
  rfl

/-- A replay whose columns are in the trace has a result, which is the course of all ticks. -/
theorem run_eq_ok {text : String} {column : Nat} (hv : c.validate = .ok ()) (hf : c.Fits)
    (ht : Trace.ofText text = .ok t) (hmax : c.maxColumn? = some column)
    (hwidth : column < t.columns) :
    ∃ ticks outputs, (t.ticks c.tickPeriod).Yields ticks ∧
      (∀ tick ∈ ticks, t.Latest tick.time tick.row) ∧ (engineAtFirst c t).Fed c t.first ∧
      Course c (engineAtFirst c t).begin ticks outputs ∧
      run ⟨(engineAtFirst c t).begin, t.ticks c.tickPeriod⟩ t.tickBound = .ok outputs ∧
      (outputs.flatMap ReplayTick.places).Pairwise (· ≤ ·) := by
  have hcolumns := (Trace.ofText_eq_ok.mp ht).uniform.columns_eq
  obtain ⟨ticks, hyields, hpaced⟩ := (Trace.ordered_of_ofText ht).exists_ticks c.tickPeriod
  have hperiod : 0 < max c.tickPeriod 1 := by omega
  have hincreasing := hpaced.increasing hperiod
  have hwired : (engineAtFirst c t).Wired c t.first.values := .atRest hv hf _ _
  have hahead : Ahead c (engineAtFirst c t).begin ticks := by
    refine ⟨⟨column, hmax, fun tick htick => ?_⟩, fun tick htick => ?_, hincreasing⟩
    · rw [hcolumns _ (hpaced.latest tick htick).mem]
      exact hwidth
    · exact (Nat.zero_max _).trans_le (hpaced.now_le hperiod tick htick)
  obtain ⟨outputs, hcourse⟩ := exists_course hwired.begin hahead
  have hcount : ticks.length ≤ t.tickBound := by
    have := hpaced.length_le hperiod
    unfold Trace.tickBound Trace.duration
    omega
  exact ⟨ticks, outputs, hyields, hpaced.latest, hwired.fed hmax hwidth, hcourse,
    hcourse.runAfter_eq hyields hcount [], hcourse.ordered hincreasing⟩

end Replay

/-- Of files that are read, a replay fails before it prints anything just when the highest column that
is asked for is not in the trace. Otherwise every channel starts from its cell of the first row; and
at each tick of the trace the clock shows the time of the tick and every channel reads its cell of the
latest row. What is printed are the events of the ticks with their times, in the order of the times
and of the channels. -/
theorem replay_faithful [Elementary] (json : Bool) {configPath tracePath : String}
    {configFile traceFile : FileContent} {c : SensorConfig} {t : Trace}
    (hconfig : loadConfig configPath configFile = .ok c)
    (htrace : loadTrace tracePath traceFile = .ok t) :
    ∃ column, c.maxColumn? = some column ∧
      (t.columns ≤ column → replay json configPath configFile tracePath traceFile =
        .failed (.ofChain (ReplayError.missingColumn column t.columns).chain)) ∧
      (column < t.columns → ∃ engine ticks outputs,
        c.buildEngine (Clock.set {} t.first.time)
          (fun column => ({ column, row := t.first.values } : ColumnSource)) = .ok engine ∧
        engine.Fed c t.first ∧
        (t.ticks c.tickPeriod).Yields ticks ∧ (∀ tick ∈ ticks, t.Latest tick.time tick.row) ∧
        Replay.Course c engine.begin ticks outputs ∧
        replay json configPath configFile tracePath traceFile =
          { lines := outputs.flatMap (Report.tickLines json (c.channels.map ChannelConfig.name)) } ∧
        (outputs.flatMap ReplayTick.places).Pairwise (· ≤ ·)) := by
  obtain ⟨hv, hf⟩ := loadConfig_accepted hconfig
  obtain ⟨text, htext⟩ := loadTrace_eq_ok htrace
  have hwell := SensorConfig.validate_eq_ok.mp hv
  obtain ⟨column, hmax⟩ := SensorConfig.maxColumn?_eq_some hwell.nonempty
  have hstart := Replay.startEngine_eq (t := t) hv hmax
  refine ⟨column, hmax, fun hmissing => ?_, fun hwidth => ?_⟩
  · rw [if_pos hmissing] at hstart
    unfold replay prepareReplay
    simp only [hconfig, htrace, Checked.ok_bind, Replay.start, hstart]
    rfl
  · rw [if_neg (Nat.not_le.mpr hwidth)] at hstart
    obtain ⟨ticks, outputs, hyields, hlatest, hfed, hcourse, hrun, hordered⟩ :=
      Replay.run_eq_ok hv hf htext hmax hwidth
    refine ⟨_, ticks, outputs, c.buildEngine_eq hwell.accepted _ _, hfed, hyields, hlatest, hcourse,
      ?_, hordered⟩
    have hnames : (Replay.engineAtFirst c t).begin.names = c.channels.map ChannelConfig.name :=
      (Replay.names_begin _).trans (c.names_engineAtRest _ _)
    unfold replay prepareReplay
    simp only [hconfig, htrace, Checked.ok_bind, Replay.start, hstart, Except.mapError,
      Checked.pure_eq_ok, hrun, hnames]

/-- A lever in the second column of a trace. -/
def leverFile : FileContent :=
  some ("tick_ms: 5\nchannels:\n- name: lever\n  column: 1\n" ++
    "  conditioning: \x7bkind: direct, input_bits: 7\x7d\n  trigger: \x7bkind: continuous\x7d\n" ++
    "  output: \x7bkind: control_change, channel: 0, controller: 7\x7d\n").toUTF8

def leverReadings : FileContent := some "0, 3, 10\n7, 4, 20\n".toUTF8

theorem lever_replayed :
    letI := Elementary.linked
    ∃ c t, loadConfig "lever.yaml" leverFile = .ok c ∧ loadTrace "lever.txt" leverReadings = .ok t ∧
      c.maxColumn? = some 1 ∧ t.columns = 2 ∧
      ∃ (engine : Engine ColumnSource) (ticks : List Tick) (outputs : List ReplayTick),
        engine.Fed c t.first ∧ (t.ticks c.tickPeriod).Yields ticks ∧
        Replay.Course c engine.begin ticks outputs ∧
        replay true "lever.yaml" leverFile "lever.txt" leverReadings =
          { lines := outputs.flatMap (Report.tickLines true (c.channels.map ChannelConfig.name)) } := by
  let _ := Elementary.linked
  have hcolumn : (loadConfig "lever.yaml" leverFile).toOption.bind SensorConfig.maxColumn? =
      some 1 := by decide +kernel
  have hcolumns : (loadTrace "lever.txt" leverReadings).toOption.map Trace.columns = some 2 := by
    decide +kernel
  obtain ⟨c, hc, hmax⟩ := Option.bind_eq_some_iff.mp hcolumn
  obtain ⟨t, ht, htwo⟩ := Option.map_eq_some_iff.mp hcolumns
  have hconfig := Checked.toOption_eq_some.mp hc
  have htrace := Checked.toOption_eq_some.mp ht
  obtain ⟨column, hmax', -, hreplay⟩ := replay_faithful true hconfig htrace
  obtain rfl := Option.some.inj (hmax'.symm.trans hmax)
  obtain ⟨engine, ticks, outputs, -, hfed, hticks, -, hcourse, hlines, -⟩ := hreplay (by omega)
  exact ⟨c, t, hconfig, htrace, hmax, htwo, engine, ticks, outputs, hfed, hticks, hcourse, hlines⟩

end SensorEvents
