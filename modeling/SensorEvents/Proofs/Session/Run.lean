import SensorEvents.Proofs.Config.Validation

/-!
# Runs of a session

A session is started, given new baselines and ticked in any order, each tick at a clock reading of
its own, which may also be in the past. `Engine.Sound` is kept by all of it, so every run has a
result. A tick delivers for each channel the events that fit its gate, and the sink of a run is the
sink it started with after all delivered events.
-/
namespace SensorEvents

/-- Whether the gate of a channel is on; there is no gate where there is no channel. -/
def gateAt {σ : Type} (channels : List (Channel σ)) (i : Nat) : Bool :=
  channels[i]?.any Channel.isOn

namespace Engine

variable {σ : Type} [Source σ]

/-- Every channel can be run. -/
def Sound (e : Engine σ) : Prop := ∀ c ∈ e.channels, c.Sound

/-- Every channel is run, and each one reports events that fit its gate. -/
theorem tickFrom_eq_ok [Elementary] (now id : Nat) {channels : List (Channel σ)}
    (h : ∀ c ∈ channels, c.Sound) :
    ∃ channels' events, tickFrom now id channels = .ok (channels', events) ∧
      channels'.length = channels.length ∧ (∀ c ∈ channels', c.Sound) ∧
      (∀ i, Reported (gateAt channels i) (gateAt channels' i) (eventsOf (id + i) events)) ∧
      (∀ e ∈ events, id ≤ e.channel) ∧ events.length ≤ 2 * channels.length := by
  induction channels generalizing id with
  | nil => exact ⟨[], [], rfl, rfl, h, fun i => Reported.nil (gateAt [] i), nofun, Nat.zero_le 0⟩
  | cons c channels ih =>
    obtain ⟨c', es, htick, hsound, hreported, hshort⟩ :=
      Channel.tick_eq_ok (h c List.mem_cons_self) now
    obtain ⟨channels', later, hlater, hlength, hsounds, hgates, hids, hcount⟩ :=
      ih (id + 1) fun c hc => h c (List.mem_cons_of_mem _ hc)
    refine ⟨c' :: channels', es.map (ChannelEvent.mk id) ++ later, ?_, ?_, ?_, ?_, ?_, ?_⟩
    · simp only [tickFrom, htick, hlater, Checked.ok_bind]
      rfl
    · simp [hlength]
    · exact List.forall_mem_cons.mpr ⟨hsound, hsounds⟩
    · intro i
      rw [eventsOf_append, eventsOf_map]
      cases i with
      | zero =>
        rw [if_pos (Nat.add_zero id), eventsOf_eq_nil fun e he => by have := hids e he; omega, List.append_nil]
        exact hreported
      | succ i =>
        rw [if_neg (by omega), List.nil_append, show id + (i + 1) = id + 1 + i by omega]
        exact hgates i
    · intro e he
      rcases List.mem_append.mp he with he | he
      · obtain ⟨_, -, rfl⟩ := List.mem_map.mp he
        exact Nat.le_refl id
      · exact Nat.le_of_succ_le (hids e he)
    · simp only [List.length_append, List.length_map, List.length_cons]
      omega

/-- A tick of a sound engine has a result. -/
theorem tick_eq_ok [Elementary] {e : Engine σ} (h : e.Sound) :
    ∃ e' events, e.tick = .ok (e', events) ∧ e'.Sound ∧ e'.channels.length = e.channels.length ∧
      (∀ i, Reported (gateAt e.channels i) (gateAt e'.channels i) (eventsOf i events)) ∧
      events.length ≤ 2 * e.channels.length := by
  obtain ⟨channels, events, htick, hlength, hsound, hgates, -, hcount⟩ :=
    tickFrom_eq_ok e.clock.now 0 h
  refine ⟨{ e with channels }, events, ?_, hsound, hlength, ?_, hcount⟩
  · unfold tick
    rw [htick, Checked.ok_bind]
    rfl
  · intro i
    simpa using hgates i

end Engine

/-- What a session is told. -/
inductive SessionCall where
  | begin
  | resetBaselines
  /-- The clock reads `now`, whatever it read before. -/
  | tick (now : Nat)

namespace Session

variable {σ : Type} [Source σ] [Elementary]

/-- Carry out a call; the events that are delivered come with the session. -/
def call (s : Session σ) : SessionCall → Checked (Session σ × List ChannelEvent)
  | .begin => .ok (s.begin, [])
  | .resetBaselines => .ok (s.resetBaselines, [])
  | .tick now => (s.mapEngine fun e => { e with clock := ⟨now⟩ }).tick

/-- Carry out calls one after the other; the events come call by call. -/
def run (s : Session σ) : List SessionCall → Checked (Session σ × List (List ChannelEvent))
  | [] => .ok (s, [])
  | call :: calls => do
    let (s, events) ← s.call call
    let (s, later) ← s.run calls
    return (s, events :: later)

end Session

namespace Session

/-- The engine is sound, and the sink has taken events and their messages were sent. -/
structure Reached {σ : Type} (s s' : Session σ) (events : List ChannelEvent) : Prop where
  sound : s'.engine.Sound
  size : s'.engine.channels.length = s.engine.channels.length
  sink : s'.sink = (s.sink.receiveAll events).1
  sent : s'.sent = s.sent ++ (s.sink.receiveAll events).2

variable {σ : Type} {s : Session σ}

theorem Reached.trans {s₁ s₂ : Session σ} {es later : List ChannelEvent} (h : Reached s s₁ es)
    (h' : Reached s₁ s₂ later) : Reached s s₂ (es ++ later) := by
  refine ⟨h'.sound, h'.size.trans h.size, ?_, ?_⟩ <;> rw [MidiSink.receiveAll_append, ← h.sink]
  · exact h'.sink
  · rw [h'.sent, h.sent, List.append_assoc]

theorem Reached.refl (h : s.engine.Sound) : Reached s s [] :=
  ⟨h, rfl, rfl, (List.append_nil _).symm⟩

variable [Source σ]

theorem begin_reached (h : s.engine.Sound) :
    Reached s s.begin [] ∧ ∀ i, gateAt s.begin.engine.channels i = false := by
  refine ⟨⟨?_, List.length_map _, rfl, (List.append_nil _).symm⟩, ?_⟩
  · intro c hc
    obtain ⟨c', hc', rfl⟩ := List.mem_map.mp hc
    exact (Channel.begin_sound (h c' hc')).1
  · intro i
    unfold gateAt
    simp only [begin, Engine.begin, List.getElem?_map]
    cases hc : s.engine.channels[i]? with
    | none => rfl
    | some c => exact (Channel.begin_sound (h c (List.mem_of_getElem? hc))).2

theorem resetBaselines_reached (h : s.engine.Sound) : Reached s s.resetBaselines [] := by
  refine ⟨?_, List.length_map _, rfl, (List.append_nil _).symm⟩
  intro c hc
  obtain ⟨c', hc', rfl⟩ := List.mem_map.mp hc
  exact (Channel.resetBaseline_sound (h c' hc')).1

variable [Elementary]

/-- A tick of a sound session has a result, and brings every gate to where its events lead. -/
theorem tick_eq_ok (h : s.engine.Sound) :
    ∃ s' events, s.tick = .ok (s', events) ∧ Reached s s' events ∧
      (∀ i, Reported (gateAt s.engine.channels i) (gateAt s'.engine.channels i)
        (eventsOf i events)) ∧
      events.length ≤ 2 * s.engine.channels.length := by
  obtain ⟨engine, events, htick, hsound, hsize, hgates, hcount⟩ := Engine.tick_eq_ok h
  refine ⟨{ engine
            sink := (s.sink.receiveAll events).1
            sent := s.sent ++ (s.sink.receiveAll events).2 }, events, ?_,
    ⟨hsound, hsize, rfl, rfl⟩, hgates, hcount⟩
  unfold tick
  rw [htick, Checked.ok_bind]
  rfl

/-- A call of a sound session has a result. -/
theorem call_eq_ok (h : s.engine.Sound) (c : SessionCall) :
    ∃ s' events, s.call c = .ok (s', events) ∧ Reached s s' events ∧
      events.length ≤ 2 * s.engine.channels.length ∧ ∀ e ∈ events, e.event.Lossless := by
  cases c with
  | begin => exact ⟨_, [], rfl, (begin_reached h).1, Nat.zero_le _, nofun⟩
  | resetBaselines => exact ⟨_, [], rfl, resetBaselines_reached h, Nat.zero_le _, nofun⟩
  | tick now =>
    obtain ⟨s', events, htick, hreached, hgates, hcount⟩ :=
      tick_eq_ok (s := s.mapEngine fun e => { e with clock := ⟨now⟩ }) h
    exact ⟨s', events, htick, ⟨hreached.sound, hreached.size, hreached.sink, hreached.sent⟩, hcount,
      fun e he => (hgates e.channel).lossless e.event (mem_eventsOf he)⟩

/-- A run of a sound session has a result, whatever is called and whenever. -/
theorem run_eq_ok (h : s.engine.Sound) (calls : List SessionCall) :
    ∃ s' deliveries, s.run calls = .ok (s', deliveries) ∧ Reached s s' deliveries.flatten ∧
      ∀ events ∈ deliveries, events.length ≤ 2 * s.engine.channels.length ∧
        ∀ e ∈ events, e.event.Lossless := by
  induction calls generalizing s with
  | nil => exact ⟨s, [], rfl, .refl h, nofun⟩
  | cons c calls ih =>
    obtain ⟨s₁, events, hcall, hreached, hcount, hlossless⟩ := call_eq_ok h c
    obtain ⟨s', deliveries, hrun, hreached', hlater⟩ := ih hreached.sound
    refine ⟨s', events :: deliveries, ?_, hreached.trans hreached', ?_⟩
    · simp only [run, hcall, hrun, Checked.ok_bind]
      rfl
    · rw [hreached.size] at hlater
      exact List.forall_mem_cons.mpr ⟨⟨hcount, hlossless⟩, hlater⟩

end Session

namespace SensorConfig

variable {c : SensorConfig}

/-- The settings fit the words they are kept in. -/
def Fits (c : SensorConfig) : Prop := ∀ channel ∈ c.channels, channel.Fits

instance (c : SensorConfig) : Decidable c.Fits :=
  inferInstanceAs (Decidable (∀ channel ∈ c.channels, channel.Fits))

variable {σ : Type}

/-- The engine of accepted settings is sound, and every gate is off. -/
theorem engineAtRest_sound (hv : c.validate = .ok ()) (hf : c.Fits) (clock : Clock)
    (source : Nat → σ) :
    (c.engineAtRest clock source).Sound ∧
      (c.engineAtRest clock source).channels.length = c.channels.length ∧
      ∀ i, gateAt (c.engineAtRest clock source).channels i = false := by
  have haccepted := (validate_eq_ok.mp hv).accepted
  have hrest : ∀ channel ∈ (c.engineAtRest clock source).channels,
      channel.Sound ∧ channel.isOn = false := by
    intro channel hchannel
    obtain ⟨entry, hentry, rfl⟩ := List.mem_map.mp hchannel
    have hmem : entry.1 ∈ c.channels := List.fst_mem_of_mem_zipIdx hentry
    exact ⟨ChannelConfig.atRest_sound (haccepted _ hmem) (hf _ hmem) _, entry.1.isOn_atRest _⟩
  refine ⟨fun channel hchannel => (hrest channel hchannel).1, ?_, ?_⟩
  · rw [engineAtRest, List.length_map, placed, List.length_zipIdx]
  · intro i
    unfold gateAt
    cases hc : (c.engineAtRest clock source).channels[i]? with
    | none => rfl
    | some channel => exact (hrest channel (List.mem_of_getElem? hc)).2

end SensorConfig

/-- A session of an accepted configuration starts sound, with every gate off. -/
theorem Session.start_eq_ok {σ : Type} [Source σ] {c : SensorConfig} (hv : c.validate = .ok ())
    (hf : c.Fits) (clock : Clock) (source : Nat → σ) :
    ∃ s, Session.start c clock source = .ok s ∧ s.engine.Sound ∧
      s.engine.channels.length = c.channels.length ∧ (∀ i, gateAt s.engine.channels i = false) ∧
      s.sink = c.bindOutputs .empty ∧ s.sent = [] := by
  obtain ⟨hsound, hlength, hoff⟩ := c.engineAtRest_sound hv hf clock source
  refine ⟨{ engine := c.engineAtRest clock source, sink := c.bindOutputs .empty }, ?_, hsound,
    hlength, hoff, rfl, rfl⟩
  unfold Session.start
  rw [SensorConfig.buildEngine_eq (SensorConfig.validate_eq_ok.mp hv).accepted, Checked.ok_bind]
  rfl

end SensorEvents
