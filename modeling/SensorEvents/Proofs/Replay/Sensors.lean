import SensorEvents.Proofs.Channel.Restart
import SensorEvents.Proofs.Engine.Independence
import SensorEvents.Readings.Source

/-!
# Sensors of a replay

The sensor of a channel is the source behind its guard. In a replay no reading moves a sensor, so it
stays at its column whatever the channel does, and it reads the row that was set last. `Engine.Wired`
is what an engine keeps of that between the rows.
-/
namespace SensorEvents

namespace Feed

variable {σ : Type}

/-- The source behind the guard, if there is one. -/
def inner : Feed σ → σ
  | plain source => source
  | guarded g => g.inner

theorem inner_ofLimit (source : σ) (limit : Option Nat) : (ofLimit source limit).inner = source := by
  cases limit <;> rfl

theorem inner_mapSource (f : σ → σ) (feed : Feed σ) : (feed.mapSource f).inner = f feed.inner := by
  cases feed <;> rfl

/-- A feed reads its source. -/
theorem inner_read [Source σ] (feed : Feed σ) :
    (Source.read feed).2.inner = (Source.read feed.inner).2 := by
  cases feed <;> rfl

end Feed

/-- No reading moves a source of this kind. -/
def Source.Still (σ : Type) [Source σ] : Prop := ∀ s : σ, (Source.read s).2 = s

theorem ColumnSource.still : Source.Still ColumnSource := fun _ => rfl

namespace Channel

variable {σ : Type}

/-- Where the readings of a channel come from. -/
def sensor (c : Channel σ) : σ := c.conditioner.source.inner

theorem sensor_atRest (config : ChannelConfig) (source : σ) :
    (config.atRest source).sensor = source := by
  unfold sensor ChannelConfig.atRest
  rw [(Conditioner.atRest_fresh config.conditioning _).1, Feed.inner_ofLimit]

theorem sensor_mapSource (f : σ → σ) (c : Channel σ) :
    (c.mapSource f).sensor = f c.sensor := by
  unfold sensor mapSource Conditioner.mapSource
  cases c.conditioner <;> exact Feed.inner_mapSource f _

variable [Source σ]

theorem inner_still (h : Source.Still σ) (feed : Feed σ) :
    (Source.read feed).2.inner = feed.inner :=
  feed.inner_read.trans (h feed.inner)

theorem sensor_begin (h : Source.Still σ) (c : Channel σ) : c.begin.sensor = c.sensor :=
  (c.conditioner.source_kept (inner_still h)).1

/-- A tick leaves a sensor that readings do not move. -/
theorem sensor_ticked [Elementary] (h : Source.Still σ) {config : ChannelConfig} {c c' : Channel σ}
    {now : Nat} {events : List Event} (hc : config.Served c) (ht : Ticked c now c' events) :
    c'.sensor = c.sensor := by
  have hawake : c.conditioner.awake.source.inner = c.sensor :=
    (c.conditioner.source_kept (inner_still h)).2.2
  cases ht with
  | early hdue => exact hawake
  | polled hdue hadvance hvalue hquantize hshown heval =>
    obtain ⟨-, -, hreadable, -⟩ := c.conditioner.awake_keeps
    obtain ⟨k, hadvance', hadvanced⟩ := Conditioner.advance_eq_ok (hreadable hc.readable) now
    obtain rfl := Checked.ok_unique hadvance hadvance'
    unfold sensor
    rw [hadvanced.source, inner_still h]
    exact hawake

end Channel

namespace Engine

/-- Every channel serves its entry of a configuration, and its sensor is at its own column of a row. -/
structure Wired (c : SensorConfig) (row : List Nat) (e : Engine ColumnSource) : Prop where
  size : e.channels.length = c.channels.length
  channels : ∀ (i : Nat) (settings : ChannelConfig) (channel : Channel ColumnSource),
    c.channels[i]? = some settings → e.channels[i]? = some channel →
      settings.Served channel ∧ channel.sensor = { column := settings.columnAt i, row }

variable {c : SensorConfig} {row : List Nat} {e : Engine ColumnSource}

theorem Wired.atRest (hv : c.validate = .ok ()) (hf : c.Fits) (clock : Clock) (row : List Nat) :
    Wired c row (c.engineAtRest clock fun column => { column, row }) := by
  refine ⟨(c.engineAtRest_sound hv hf clock _).2.1, fun i settings channel hsettings hchannel => ?_⟩
  have hmem := List.mem_of_getElem? hsettings
  have hplaced : c.placed[i]? = some (settings, i) := by
    unfold SensorConfig.placed
    rw [List.getElem?_zipIdx, hsettings]
    simp
  have hrest : channel = settings.atRest { column := settings.columnAt i, row } := by
    unfold SensorConfig.engineAtRest at hchannel
    rw [List.getElem?_map, hplaced] at hchannel
    exact (Option.some.inj hchannel).symm
  rw [hrest]
  exact ⟨ChannelConfig.atRest_served ((SensorConfig.validate_eq_ok.mp hv).accepted _ hmem)
    (hf _ hmem) _, Channel.sensor_atRest settings _⟩

/-- What is done to each channel by itself. -/
theorem Wired.map {row' : List Nat} {f : Channel ColumnSource → Channel ColumnSource} {clock : Clock}
    (h : Wired c row e)
    (hf : ∀ (settings : ChannelConfig) (channel : Channel ColumnSource) (column : Nat),
      settings.Served channel → channel.sensor = { column, row } →
        settings.Served (f channel) ∧ (f channel).sensor = { column, row := row' }) :
    Wired c row' { clock, channels := e.channels.map f } := by
  refine ⟨(List.length_map f).trans h.size, fun i settings channel hsettings hchannel => ?_⟩
  dsimp only at hchannel
  rw [List.getElem?_map] at hchannel
  obtain ⟨before, hbefore, rfl⟩ := Option.map_eq_some_iff.mp hchannel
  obtain ⟨hserved, hsensor⟩ := h.channels i settings before hsettings hbefore
  exact hf settings before _ hserved hsensor

theorem Wired.begin (h : Wired c row e) : Wired c row e.begin :=
  h.map fun _ channel _ hserved hsensor =>
    ⟨hserved.begin_served, (channel.sensor_begin ColumnSource.still).trans hsensor⟩

/-- A new row is set for all sensors. -/
theorem Wired.setRow (h : Wired c row e) (clock : Clock) (row' : List Nat) :
    Wired c row' { e.mapSources (ColumnSource.setRow row') with clock } :=
  h.map fun _ channel _ hserved hsensor => by
    refine ⟨hserved.mapSource_served _, ?_⟩
    rw [channel.sensor_mapSource, hsensor]
    rfl

variable [Elementary]

/-- A tick has a result and leaves the sensors, and its events come in the order of the channels. -/
theorem Wired.tick_eq_ok (h : Wired c row e) :
    ∃ e' events, e.tick = .ok (e', events) ∧ Wired c row e' ∧ e'.clock = e.clock ∧
      (events.map ChannelEvent.channel).Pairwise (· ≤ ·) := by
  have hticks : ∀ channel ∈ e.channels, ∃ r, channel.tick e.clock.now = .ok r := by
    intro channel hchannel
    obtain ⟨i, hi⟩ := List.mem_iff_getElem?.mp hchannel
    have hlt : i < c.channels.length := h.size ▸ (List.getElem?_eq_some_iff.mp hi).1
    obtain ⟨c', es, htick, -⟩ :=
      (h.channels i _ channel (List.getElem?_eq_getElem hlt) hi).1.tick_eq_ok e.clock.now
    exact ⟨_, htick⟩
  obtain ⟨⟨channels, events⟩, htick⟩ := exists_tickFrom 0 hticks
  have hapart := tickFrom_apart htick
  refine ⟨{ e with channels }, events, ?_, ⟨hapart.size.trans h.size, ?_⟩, rfl, hapart.ordered⟩
  · unfold tick
    rw [htick, Checked.ok_bind]
    rfl
  · intro i settings channel hsettings hchannel
    have hlt : i < e.channels.length := hapart.size ▸ (List.getElem?_eq_some_iff.mp hchannel).1
    obtain ⟨channel', hchannel', hown⟩ := hapart.alone i _ (List.getElem?_eq_getElem hlt)
    obtain rfl := Option.some.inj (hchannel.symm.trans hchannel')
    obtain ⟨hserved, hsensor⟩ := h.channels i settings _ hsettings (List.getElem?_eq_getElem hlt)
    obtain ⟨last, es, hown', hticked⟩ := hserved.tick_eq_ok e.clock.now
    obtain ⟨rfl, rfl⟩ := Checked.ok_unique_pair hown hown'
    exact ⟨hserved.ticked hticked,
      (Channel.sensor_ticked ColumnSource.still hserved hticked).trans hsensor⟩

end Engine

end SensorEvents
