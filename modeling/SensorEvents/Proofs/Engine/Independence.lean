import SensorEvents.EventLog
import SensorEvents.Proofs.Channel.Run
import SensorEvents.Proofs.Session.Faultless

/-!
# Channels do not interfere

An engine is started, given new baselines and ticked in any order. Each of its channels does what it
would do alone: what the others do shows neither in its events nor in what becomes of it. The events
of a tick come channel by channel, and a tick that hands them to a sink as they arise hands over just
these, and answers how many they were.
-/
namespace SensorEvents

/-- What a call is to each channel. -/
def SessionCall.each : SessionCall → ChannelCall
  | .begin => .begin
  | .resetBaselines => .resetBaseline
  | .tick now => .tick now

section Sinks

variable {σ τ : Type} [Source σ] [Elementary] (receive : τ → ChannelEvent → τ)

namespace Engine

theorem deliverFrom_eq (now id : Nat) (channels : List (Channel σ)) (sink : τ) :
    deliverFrom receive now id channels sink =
      (fun r => (r.1, r.2.foldl receive sink, r.2.length)) <$> tickFrom now id channels := by
  induction channels generalizing id sink with
  | nil => rfl
  | cons channel channels ih =>
    rw [deliverFrom, tickFrom, Channel.deliver]
    cases channel.tick now with
    | error => rfl
    | ok ticked =>
      simp only [Checked.ok_bind, Checked.pure_eq_ok, ih]
      cases tickFrom now (id + 1) channels with
      | error => rfl
      | ok later =>
        simp only [Checked.map_ok, Checked.ok_bind, List.foldl_append, List.foldl_map,
          List.length_append, List.length_map]

/-- A sink is handed the events of the tick, and they are counted. -/
theorem deliver_eq (e : Engine σ) (sink : τ) :
    e.deliver receive sink = (fun r => (r.1, r.2.foldl receive sink, r.2.length)) <$> e.tick := by
  unfold deliver tick
  rw [deliverFrom_eq]
  cases tickFrom e.clock.now 0 e.channels <;> rfl

end Engine

end Sinks

section Steps

variable {σ : Type} {Does Does' : Channel σ → Channel σ → List Event → Prop}

namespace Engine

/-- The channels after a step of all of them, and the events with their numbers, are those of each
channel by itself. The first channel has number `id`. -/
structure Apart (Does : Channel σ → Channel σ → List Event → Prop)
    (channels channels' : List (Channel σ)) (id : Nat) (events : List ChannelEvent) : Prop where
  size : channels'.length = channels.length
  alone : ∀ (i : Nat) (c : Channel σ), channels[i]? = some c →
    ∃ c', channels'[i]? = some c' ∧ Does c c' (eventsOf (id + i) events)
  ordered : (events.map ChannelEvent.channel).Pairwise (· ≤ ·)
  within : ∀ e ∈ events, id ≤ e.channel ∧ e.channel < id + channels.length

theorem Apart.nil (id : Nat) : Apart Does [] [] id [] where
  size := rfl
  alone i c hc := by simp at hc
  ordered := List.Pairwise.nil
  within e he := absurd he List.not_mem_nil

/-- One more channel in front, which makes its step before the others. -/
theorem Apart.cons {c c' : Channel σ} {channels channels' : List (Channel σ)} {id : Nat}
    {es : List Event} {events : List ChannelEvent} (hc : Does c c' es)
    (h : Apart Does channels channels' (id + 1) events) :
    Apart Does (c :: channels) (c' :: channels') id (es.map (ChannelEvent.mk id) ++ events) where
  size := congrArg (· + 1) h.size
  alone i x hx := by
    rw [eventsOf_append, eventsOf_map]
    cases i with
    | zero =>
      obtain rfl := Option.some.inj hx
      have hnone : eventsOf (id + 0) events = [] :=
        eventsOf_eq_nil fun e he => by have := (h.within e he).1; omega
      rw [if_pos (Nat.add_zero id), hnone, List.append_nil]
      exact ⟨c', rfl, hc⟩
    | succ i =>
      obtain ⟨x', hx', halone⟩ := h.alone i x hx
      rw [if_neg (by omega), List.nil_append, show id + (i + 1) = id + 1 + i by omega]
      exact ⟨x', hx', halone⟩
  ordered := by
    have hmap : (es.map (ChannelEvent.mk id)).map ChannelEvent.channel = es.map fun _ => id := by
      rw [List.map_map]
      rfl
    rw [List.map_append, hmap, List.pairwise_append]
    refine ⟨List.pairwise_map.mpr (List.pairwise_of_forall fun _ _ => Nat.le_refl id), h.ordered, ?_⟩
    intro a ha b hb
    obtain ⟨-, -, rfl⟩ := List.mem_map.mp ha
    obtain ⟨e, he, rfl⟩ := List.mem_map.mp hb
    exact Nat.le_of_succ_le (h.within e he).1
  within e he := by
    rw [List.length_cons]
    rcases List.mem_append.mp he with he | he
    · obtain ⟨_, -, rfl⟩ := List.mem_map.mp he
      exact ⟨Nat.le_refl id, by simp⟩
    · have := h.within e he
      omega

/-- A step of all channels that delivers nothing. -/
theorem Apart.map {f : Channel σ → Channel σ} (h : ∀ c, Does c (f c) [])
    (channels : List (Channel σ)) : Apart Does channels (channels.map f) 0 [] where
  size := List.length_map f
  alone i c hc := ⟨f c, by rw [List.getElem?_map, hc]; rfl, h c⟩
  ordered := List.Pairwise.nil
  within e he := absurd he List.not_mem_nil

theorem Apart.imp {channels channels' : List (Channel σ)} {id : Nat} {events : List ChannelEvent}
    (h : Apart Does channels channels' id events) (himp : ∀ c c' es, Does c c' es → Does' c c' es) :
    Apart Does' channels channels' id events where
  size := h.size
  alone i c hc :=
    have ⟨c', hc', hdoes⟩ := h.alone i c hc
    ⟨c', hc', himp c c' _ hdoes⟩
  ordered := h.ordered
  within := h.within

end Engine

end Steps

section Runs

variable {σ : Type} [Source σ] [Elementary]

/-- A call of a channel has a result, with these events at whatever times. -/
def Channel.Answers (call : ChannelCall) (c c' : Channel σ) (es : List Event) : Prop :=
  ∃ own, c.call call = .ok (c', own) ∧ own.map TimedEvent.event = es

theorem Channel.answers_of_tick {now : Nat} {c c' : Channel σ} {es : List Event}
    (h : c.tick now = .ok (c', es)) : Answers (.tick now) c c' es := by
  refine ⟨es.map (TimedEvent.mk now), ?_, ?_⟩
  · simp only [call, h, Checked.ok_bind]
    rfl
  · rw [List.map_map]
    exact List.map_id es

namespace Engine

/-- Carry out a call; the events that arise come with the engine. -/
def call (e : Engine σ) : SessionCall → Checked (Engine σ × List ChannelEvent)
  | .begin => .ok (e.begin, [])
  | .resetBaselines => .ok (e.resetBaselines, [])
  | .tick now => { e with clock := ⟨now⟩ }.tick

/-- Carry out calls one after the other; the events come call by call. -/
def run (e : Engine σ) : List SessionCall → Checked (Engine σ × List (List ChannelEvent))
  | [] => .ok (e, [])
  | call :: calls => do
    let (e, events) ← e.call call
    let (e, later) ← e.run calls
    return (e, events :: later)

variable {e e' : Engine σ}

theorem tickFrom_apart {now id : Nat} {channels channels' : List (Channel σ)}
    {events : List ChannelEvent} (h : tickFrom now id channels = .ok (channels', events)) :
    Apart (fun c c' es => c.tick now = .ok (c', es)) channels channels' id events := by
  induction channels generalizing id channels' events with
  | nil =>
    obtain ⟨rfl, rfl⟩ := Prod.mk.inj (Except.ok.inj h)
    exact .nil id
  | cons c channels ih =>
    obtain ⟨⟨c', es⟩, htick, h⟩ := Checked.bind_eq_ok.mp h
    obtain ⟨⟨later', later⟩, hlater, h⟩ := Checked.bind_eq_ok.mp h
    obtain ⟨rfl, rfl⟩ := Prod.mk.inj (Except.ok.inj h)
    exact .cons htick (ih hlater)

/-- Channels that can make their ticks can make them one after the other. -/
theorem exists_tickFrom {now : Nat} (id : Nat) {channels : List (Channel σ)}
    (h : ∀ c ∈ channels, ∃ r, c.tick now = .ok r) : ∃ r, tickFrom now id channels = .ok r := by
  induction channels generalizing id with
  | nil => exact ⟨_, rfl⟩
  | cons c channels ih =>
    obtain ⟨⟨⟨c', es⟩, htick⟩, hchannels⟩ := List.forall_mem_cons.mp h
    obtain ⟨⟨later', later⟩, hlater⟩ := ih (id + 1) hchannels
    simp only [tickFrom, htick, hlater, Checked.ok_bind]
    exact ⟨_, rfl⟩

theorem call_apart {call : SessionCall} {events : List ChannelEvent}
    (h : e.call call = .ok (e', events)) :
    Apart (Channel.Answers call.each) e.channels e'.channels 0 events := by
  cases call with
  | begin =>
    obtain ⟨rfl, rfl⟩ := Prod.mk.inj (Except.ok.inj h)
    exact .map (fun c => ⟨[], rfl, rfl⟩) e.channels
  | resetBaselines =>
    obtain ⟨rfl, rfl⟩ := Prod.mk.inj (Except.ok.inj h)
    exact .map (fun c => ⟨[], rfl, rfl⟩) e.channels
  | tick now =>
    obtain ⟨⟨channels, events⟩, htick, h⟩ := Checked.bind_eq_ok.mp h
    obtain ⟨rfl, rfl⟩ := Prod.mk.inj (Except.ok.inj h)
    exact (tickFrom_apart htick).imp fun _ _ _ => Channel.answers_of_tick

theorem exists_call {call : SessionCall} (h : ∀ c ∈ e.channels, ∃ r, c.call call.each = .ok r) :
    ∃ r, e.call call = .ok r := by
  cases call with
  | begin => exact ⟨_, rfl⟩
  | resetBaselines => exact ⟨_, rfl⟩
  | tick now =>
    have hticks : ∀ c ∈ e.channels, ∃ r, c.tick now = .ok r := fun c hc =>
      have ⟨r, hr⟩ := h c hc
      have ⟨ticked, htick, _⟩ := Checked.bind_eq_ok.mp hr
      ⟨ticked, htick⟩
    obtain ⟨ticked, htick⟩ := exists_tickFrom 0 hticks
    refine ⟨({ clock := ⟨now⟩, channels := ticked.1 }, ticked.2), ?_⟩
    simp only [call, tick, htick, Checked.ok_bind]
    rfl

/-- The channels after a run and the events of it are those of each channel run by itself. -/
structure RunApart (e e' : Engine σ) (calls : List SessionCall)
    (deliveries : List (List ChannelEvent)) : Prop where
  size : e'.channels.length = e.channels.length
  alone : ∀ (i : Nat) (c : Channel σ), e.channels[i]? = some c →
    ∃ c' own, e'.channels[i]? = some c' ∧ c.run (calls.map SessionCall.each) = .ok (c', own) ∧
      own.map (List.map TimedEvent.event) = deliveries.map (eventsOf i)
  ordered : ∀ events ∈ deliveries, (events.map ChannelEvent.channel).Pairwise (· ≤ ·) ∧
    ∀ x ∈ events, x.channel < e.channels.length

theorem run_apart {calls : List SessionCall} {deliveries : List (List ChannelEvent)}
    (h : e.run calls = .ok (e', deliveries)) : RunApart e e' calls deliveries := by
  induction calls generalizing e deliveries with
  | nil =>
    obtain ⟨rfl, rfl⟩ := Prod.mk.inj (Except.ok.inj h)
    exact ⟨rfl, fun i c hc => ⟨c, [], hc, rfl, rfl⟩, List.forall_mem_nil _⟩
  | cons call calls ih =>
    obtain ⟨⟨e₁, events⟩, hcall, h⟩ := Checked.bind_eq_ok.mp h
    obtain ⟨⟨e₂, later⟩, hrun, h⟩ := Checked.bind_eq_ok.mp h
    obtain ⟨rfl, rfl⟩ := Prod.mk.inj (Except.ok.inj h)
    have hfirst := call_apart hcall
    have hlater := ih hrun
    refine ⟨hlater.size.trans hfirst.size, fun i c hc => ?_,
      List.forall_mem_cons.mpr ⟨⟨hfirst.ordered, fun x hx => ?_⟩, hfirst.size ▸ hlater.ordered⟩⟩
    · obtain ⟨c₁, hc₁, now, hnow, hevents⟩ := hfirst.alone i c hc
      obtain ⟨c', own, hc', hown, hsame⟩ := hlater.alone i c₁ hc₁
      refine ⟨c', now :: own, hc', Channel.run_cons hnow hown, ?_⟩
      rw [List.map_cons, List.map_cons, hevents, hsame, Nat.zero_add]
    · have := (hfirst.within x hx).2
      omega

/-- An engine can make a run just when each of its channels can. -/
theorem exists_run_iff {calls : List SessionCall} :
    (∃ r, e.run calls = .ok r) ↔
      ∀ c ∈ e.channels, ∃ r, c.run (calls.map SessionCall.each) = .ok r := by
  constructor
  · rintro ⟨⟨e', deliveries⟩, h⟩ c hc
    obtain ⟨i, hi⟩ := List.mem_iff_getElem?.mp hc
    obtain ⟨c', own, -, hown, -⟩ := (run_apart h).alone i c hi
    exact ⟨_, hown⟩
  · intro h
    induction calls generalizing e with
    | nil => exact ⟨_, rfl⟩
    | cons call calls ih =>
      have hcalls : ∀ c ∈ e.channels, ∃ r, c.call call.each = .ok r := fun c hc =>
        have ⟨r, hr⟩ := h c hc
        have ⟨first, hfirst, _⟩ := Checked.bind_eq_ok.mp hr
        ⟨first, hfirst⟩
      obtain ⟨⟨e₁, events⟩, hcall⟩ := exists_call hcalls
      have hfirst := call_apart hcall
      have hlater : ∀ c ∈ e₁.channels, ∃ r, c.run (calls.map SessionCall.each) = .ok r := by
        intro c₁ hc₁
        obtain ⟨i, hi⟩ := List.mem_iff_getElem?.mp hc₁
        have hlt : i < e.channels.length := hfirst.size ▸ (List.getElem?_eq_some_iff.mp hi).1
        obtain ⟨c, hc⟩ : ∃ c, e.channels[i]? = some c := ⟨_, List.getElem?_eq_getElem hlt⟩
        obtain ⟨c', hc', now, hnow, -⟩ := hfirst.alone i c hc
        obtain rfl := Option.some.inj (hi.symm.trans hc')
        obtain ⟨r, hr⟩ := h c (List.mem_of_getElem? hc)
        obtain ⟨first, hcall', hrest⟩ := Checked.bind_eq_ok.mp hr
        obtain rfl := Checked.ok_unique hnow hcall'
        obtain ⟨rest, hrest, -⟩ := Checked.bind_eq_ok.mp hrest
        exact ⟨rest, hrest⟩
      obtain ⟨⟨e', deliveries⟩, hrun⟩ := ih hlater
      refine ⟨(e', events :: deliveries), ?_⟩
      simp only [run, hcall, hrun, Checked.ok_bind]
      rfl

end Engine

/-- Whatever a channel in service is told, it can do. -/
theorem Channel.Sound.exists_run {c : Channel σ} (h : c.Sound) (calls : List ChannelCall) :
    ∃ r, c.run calls = .ok r := by
  induction calls generalizing c with
  | nil => exact ⟨_, rfl⟩
  | cons call calls ih =>
    obtain ⟨c₁, events, hcall, hsound⟩ : ∃ c₁ events, c.call call = .ok (c₁, events) ∧ c₁.Sound := by
      cases call with
      | begin => exact ⟨c.begin, [], rfl, (Channel.begin_sound h).1⟩
      | resetBaseline => exact ⟨c.resetBaseline, [], rfl, (Channel.resetBaseline_sound h).1⟩
      | tick now =>
        obtain ⟨c₁, es, htick, hsound, -, -⟩ := Channel.tick_eq_ok h now
        obtain ⟨own, hcall, -⟩ := Channel.answers_of_tick htick
        exact ⟨c₁, own, hcall, hsound⟩
    obtain ⟨⟨c', deliveries⟩, hrun⟩ := ih hsound
    exact ⟨_, Channel.run_cons hcall hrun⟩

/-- Channels do not interfere. An engine can make a run just when each of its channels can alone,
which those in service always can. Then every channel is what it becomes alone, and the events with
its number are, call by call, those that it delivers alone; the events of a call come in the order of
the channels. Handed to a sink as they arise, the events of a tick are these, one after the other, and
the count that is answered is theirs. -/
theorem Engine.channels_independent (e : Engine σ) (calls : List SessionCall) :
    ((∃ r, e.run calls = .ok r) ↔
        ∀ c ∈ e.channels, ∃ r, c.run (calls.map SessionCall.each) = .ok r) ∧
      (e.Sound → ∃ r, e.run calls = .ok r) ∧
      (∀ e' deliveries, e.run calls = .ok (e', deliveries) → RunApart e e' calls deliveries) ∧
      ∀ (τ : Type) (receive : τ → ChannelEvent → τ) (sink : τ),
        e.deliver receive sink =
          (fun r => (r.1, r.2.foldl receive sink, r.2.length)) <$> e.tick :=
  ⟨exists_run_iff,
    fun hsound => exists_run_iff.mpr fun c hc => (hsound c hc).exists_run _,
    fun _ _ => run_apart,
    fun _ receive sink => e.deliver_eq receive sink⟩

end Runs

theorem padAndLever_independent :
    letI := Elementary.linked
    ∃ e : Engine Scripted, e.Sound ∧
      padAndLever.buildEngine {} (fun column => Scripted.ofList [100 * column, 2400, 900]) = .ok e ∧
      (∃ e' deliveries, e.run [.begin, .tick 60, .tick 20, .resetBaselines, .tick 400] =
        .ok (e', deliveries) ∧
        Engine.RunApart e e' [.begin, .tick 60, .tick 20, .resetBaselines, .tick 400] deliveries) ∧
      e.deliver (fun log event => EventLog.record log [event]) {} =
        (fun r => (r.1, r.2.foldl (fun log event => EventLog.record log [event]) {}, r.2.length)) <$>
          e.tick := by
  let _ := Elementary.linked
  let source (column : Nat) := Scripted.ofList [100 * column, 2400, 900]
  have hsound := (padAndLever.engineAtRest_sound padAndLever_accepted padAndLever_fits {} source).1
  have hbuild := SensorConfig.buildEngine_eq
    (SensorConfig.validate_eq_ok.mp padAndLever_accepted).accepted {} source
  obtain ⟨-, hruns, hapart, hdeliver⟩ := Engine.channels_independent
    (padAndLever.engineAtRest {} source) [.begin, .tick 60, .tick 20, .resetBaselines, .tick 400]
  obtain ⟨⟨e', deliveries⟩, hrun⟩ := hruns hsound
  exact ⟨_, hsound, hbuild, ⟨e', deliveries, hrun, hapart e' deliveries hrun⟩, hdeliver EventLog _ {}⟩

end SensorEvents
