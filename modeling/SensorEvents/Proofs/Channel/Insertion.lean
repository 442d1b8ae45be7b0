import SensorEvents.Proofs.Channel.Run
import SensorEvents.Proofs.Config.Validation

/-!
# Ticks that are not due

A tick that comes too early leaves a channel as it is. So a run may be ticked more often, and delivers
the same events at the same times, as long as a filter was seeded before: its first tick seeds it,
due or not.
-/
namespace SensorEvents

section Runs

variable {σ : Type} [Source σ] [Elementary]

/-- `calls'` are the calls of a run from `c` with ticks between them that are not due when they come.
-/
inductive Padded : Channel σ → List ChannelCall → List ChannelCall → Prop
  | nil {c : Channel σ} : Padded c [] []
  | keep {c c' : Channel σ} {call : ChannelCall} {events : List TimedEvent}
    {calls calls' : List ChannelCall} (hcall : c.call call = .ok (c', events))
    (hlater : Padded c' calls calls') : Padded c (call :: calls) (call :: calls')
  | idle {c c' : Channel σ} {now : Nat} {events : List TimedEvent} {calls calls' : List ChannelCall}
    (hdue : c.conditioner.isDue now = false) (hcall : c.call (.tick now) = .ok (c', events))
    (hlater : Padded c' calls calls') : Padded c calls (.tick now :: calls')

/-- Two runs have results, and end with the same channel after the same events at the same times. -/
def SameEvents (x y : Checked (Channel σ × List (List TimedEvent))) : Prop :=
  ∃ c deliveries deliveries', x = .ok (c, deliveries) ∧ y = .ok (c, deliveries') ∧
    deliveries'.flatten = deliveries.flatten

theorem Conditioner.advance_started {c c' : Conditioner σ} {now : Nat}
    (h : c.advance now = .ok c') (hstarted : c.Started) : c'.Started := by
  cases c with
  | adaptive filter =>
    obtain rfl := Except.ok.inj h
    exact hstarted
  | direct reader =>
    obtain ⟨value, -, hvalue⟩ := Checked.bind_eq_ok.mp h
    obtain rfl := Except.ok.inj hvalue
    exact trivial

namespace Channel

variable {c c' : Channel σ} {now : Nat} {events : List TimedEvent}

/-- Whatever a channel is told, its conditioner is started by it. -/
theorem call_started (h : c.conditioner.Started ∨ c.conditioner.lastUpdate = 0)
    {call : ChannelCall} (hcall : c.call call = .ok (c', events)) : c'.conditioner.Started := by
  cases call with
  | begin =>
    obtain ⟨rfl, -⟩ := Prod.mk.inj (Except.ok.inj hcall)
    exact c.conditioner.begin_started
  | resetBaseline =>
    obtain ⟨rfl, -⟩ := Prod.mk.inj (Except.ok.inj hcall)
    exact c.conditioner.resetBaseline_keeps.1
  | tick now =>
    obtain ⟨⟨last, reported⟩, htick, hlast⟩ := Checked.bind_eq_ok.mp hcall
    obtain ⟨rfl, -⟩ := Prod.mk.inj (Except.ok.inj hlast)
    have hawake := c.conditioner.awake_keeps.1
    rw [tick_eq h] at htick
    split_ifs at htick
    · obtain ⟨k, hadvance, hreact⟩ := Checked.bind_eq_ok.mp htick
      obtain ⟨seen, -, hreact⟩ := Checked.bind_eq_ok.mp hreact
      obtain ⟨evaluated, -, hreact⟩ := Checked.bind_eq_ok.mp hreact
      obtain ⟨rfl, -⟩ := Prod.mk.inj (Except.ok.inj hreact)
      exact Conditioner.advance_started hadvance hawake
    · obtain ⟨rfl, -⟩ := Prod.mk.inj (Except.ok.inj htick)
      exact hawake

/-- What a tick does before its time. -/
theorem call_of_early (h : c.conditioner.Started ∨ c.conditioner.lastUpdate = 0)
    (hdue : c.conditioner.isDue now = false) :
    c.call (.tick now) = .ok ({ c with conditioner := c.conditioner.awake }, []) := by
  rw [call, tick_eq h, hdue]
  rfl

/-- A tick finds the same channel, whether the first one seeded it before or does so now. -/
theorem tick_awake (h : c.conditioner.Started ∨ c.conditioner.lastUpdate = 0) (now : Nat) :
    ({ c with conditioner := c.conditioner.awake } : Channel σ).tick now = c.tick now := by
  obtain ⟨hstarted, hconfig, -, hupdate⟩ := c.conditioner.awake_keeps
  have hdue : c.conditioner.awake.isDue now = c.conditioner.isDue now := by
    unfold Conditioner.isDue
    rw [hconfig, hupdate h]
  rw [tick_eq (.inl hstarted), tick_eq h]
  dsimp only
  rw [hdue, Conditioner.awake_of_started hstarted]
  rfl

end Channel

theorem SameEvents.cons {c c₁ : Channel σ} {call : ChannelCall} {events : List TimedEvent}
    {calls calls' : List ChannelCall} (hcall : c.call call = .ok (c₁, events))
    (h : SameEvents (c₁.run calls) (c₁.run calls')) :
    SameEvents (c.run (call :: calls)) (c.run (call :: calls')) := by
  obtain ⟨c', deliveries, deliveries', hrun, hrun', hsame⟩ := h
  refine ⟨c', events :: deliveries, events :: deliveries', Channel.run_cons hcall hrun,
    Channel.run_cons hcall hrun', ?_⟩
  rw [List.flatten_cons, List.flatten_cons, hsame]

/-- An early tick that leaves the channel as it is. -/
theorem SameEvents.idle {c c₁ : Channel σ} {now : Nat} {calls calls' : List ChannelCall}
    (hcall : c.call (.tick now) = .ok (c₁, [])) (hrun : c.run calls = c₁.run calls)
    (h : SameEvents (c₁.run calls) (c₁.run calls')) :
    SameEvents (c.run calls) (c.run (.tick now :: calls')) := by
  obtain ⟨c', deliveries, deliveries', hlater, hlater', hsame⟩ := h
  refine ⟨c', deliveries, [] :: deliveries', hrun.trans hlater, Channel.run_cons hcall hlater', ?_⟩
  rw [List.flatten_cons, List.nil_append, hsame]

namespace Padded

variable {c : Channel σ} {calls calls' : List ChannelCall}

/-- Ticks that are not due change nothing once the conditioner was started. -/
theorem same_events (h : Padded c calls calls') (hstarted : c.conditioner.Started) :
    SameEvents (c.run calls) (c.run calls') := by
  induction h with
  | nil => exact ⟨_, [], [], rfl, rfl, rfl⟩
  | keep hcall _ ih => exact .cons hcall (ih (Channel.call_started (.inl hstarted) hcall))
  | idle hdue hcall _ ih =>
    have hearly := Channel.call_of_early (.inl hstarted) hdue
    rw [Conditioner.awake_of_started hstarted] at hearly
    obtain ⟨rfl, rfl⟩ := Checked.ok_unique_pair hcall hearly
    exact .idle hcall rfl (ih hstarted)

/-- A filter that was never seeded may be seeded by an early tick, if a tick is what comes next. -/
theorem same_events_of_fresh {now : Nat} (h : Padded c (.tick now :: calls) calls')
    (hfresh : c.conditioner.lastUpdate = 0) :
    SameEvents (c.run (.tick now :: calls)) (c.run calls') := by
  cases h with
  | keep hcall hlater =>
    exact .cons hcall (hlater.same_events (Channel.call_started (.inr hfresh) hcall))
  | idle hdue hcall hlater =>
    have hearly := Channel.call_of_early (.inr hfresh) hdue
    obtain ⟨rfl, rfl⟩ := Checked.ok_unique_pair hcall hearly
    -- The early tick seeds the filter, which otherwise the tick that comes next would have done.
    refine .idle hcall ?_ (hlater.same_events (Channel.call_started (.inr hfresh) hcall))
    rw [Channel.run, Channel.run, Channel.call, Channel.call, Channel.tick_awake (.inr hfresh)]

end Padded

end Runs

/-- Polls keep their cadence. Once a conditioner was started, every poll and every new baseline is as
`PollEntry.Regular` says, and polls that were due are an interval apart. So ticks that are not due
can be put into a run of a channel, and it ends with the same channel after the same events at the
same times; into the first ticks of a filter that was never seeded as well. Every channel of accepted
settings is such a channel wherever its runs lead. -/
theorem polls_keep_cadence (σ : Type) [Source σ] [Elementary] :
    (∀ c : Conditioner σ, c.Readable → ∀ calls,
      ∃ entries, c.begin.log calls = .ok entries ∧ (∀ e ∈ entries, e.Regular) ∧
        Conditioner.Spaced c.config.pollInterval (Conditioner.dueTimes entries)) ∧
      (∀ (c : Channel σ) (calls calls' : List ChannelCall),
        (c.conditioner.Started ∨
          c.conditioner.lastUpdate = 0 ∧ ∃ now later, calls = .tick now :: later) →
        Padded c calls calls' → SameEvents (c.run calls) (c.run calls')) ∧
      ∀ config : ChannelConfig, config.validate = .ok () → config.Fits →
        ∀ (source : σ) (calls : List ChannelCall), ∃ built c deliveries,
          config.build source = .ok built ∧ built.run calls = .ok (c, deliveries) ∧
            (c.conditioner.Started ∨ c.conditioner.lastUpdate = 0) := by
  refine ⟨fun c hreadable calls => ?_, fun c calls calls' hstart hpadded => ?_,
    fun config hv hf source calls => ?_⟩
  · obtain ⟨entries, hlog, hregular, hspaced⟩ :=
      Conditioner.log_eq_ok c.begin_started (Conditioner.begin_readable hreadable) calls
    rw [c.config_begin] at hspaced
    exact ⟨entries, hlog, hregular, hspaced.tail⟩
  · rcases hstart with hstarted | ⟨hfresh, now, later, rfl⟩
    · exact hpadded.same_events hstarted
    · exact hpadded.same_events_of_fresh hfresh
  · obtain ⟨built, c, deliveries, hbuild, hrun, hserved⟩ :=
      ChannelConfig.run_eq_ok hv hf source calls
    exact ⟨built, c, deliveries, hbuild, hrun, hserved.timed⟩

/-- A lever that is polled every ten milliseconds. -/
def slowLever : ChannelConfig :=
  { leverNamed "slow" with conditioning := .direct { inputBits := 10, pollInterval := 10 } }

theorem slowLever_keeps_cadence :
    slowLever.validate = .ok () ∧ slowLever.Fits ∧
      ∃ built : Channel Scripted, letI := Elementary.linked
        slowLever.build (Scripted.ofList [800]) = .ok built ∧
        (∃ entries, built.conditioner.begin.log [.poll 3, .poll 10, .resetBaseline, .poll 25] =
            .ok entries ∧ Conditioner.Spaced 10 (Conditioner.dueTimes entries)) ∧
          SameEvents (built.run [.tick 10]) (built.run [.tick 3, .tick 7, .tick 10]) := by
  let _ := Elementary.linked
  have hv : slowLever.validate = .ok () := Checked.eq_ok_of_isOk (by decide +kernel)
  have hf : slowLever.Fits := by decide
  let source := Scripted.ofList [800]
  have hserved := ChannelConfig.atRest_served hv hf source
  obtain ⟨c, events, hcall, -⟩ := hserved.call_eq_ok (.tick 10)
  have hpadded : Padded (slowLever.atRest source) [.tick 10] [.tick 3, .tick 7, .tick 10] :=
    .idle rfl rfl (.idle rfl rfl (.keep hcall .nil))
  obtain ⟨hconditioner, -, -⟩ := polls_keep_cadence (Feed Scripted)
  obtain ⟨-, hchannel, hreached⟩ := polls_keep_cadence Scripted
  obtain ⟨built, _, _, hbuild, -⟩ := hreached slowLever hv hf source []
  obtain rfl := Checked.ok_unique hbuild (ChannelConfig.build_eq hv source)
  obtain ⟨entries, hlog, -, hspaced⟩ := hconditioner (slowLever.atRest source).conditioner
    hserved.readable [.poll 3, .poll 10, .resetBaseline, .poll 25]
  exact ⟨hv, hf, _, hbuild, ⟨entries, hlog, hspaced⟩, hchannel _ _ _ (.inl trivial) hpadded⟩

end SensorEvents
