import SensorEvents.Proofs.Channel.Accuracy

/-!
# What a new start forgets

A start seeds the filter and resets the trigger, so two channels of one configuration go on alike
when their sensors read alike from then on, whatever they were told before. One thing is kept: the
level of the quantizer. It decides what the triggers see until the two levels meet, which they do at
the latest when the conditioned value comes to an end of the scale; from then on it does not matter
any more.
-/
namespace SensorEvents

/-! ## Sources that read alike -/

namespace Source

variable {σ₁ σ₂ : Type} [Source σ₁] [Source σ₂] {s₁ : σ₁} {s₂ : σ₂}

/-- The reading that comes after `n` others. -/
def upcoming {σ : Type} [Source σ] (s : σ) : Nat → Nat
  | 0 => (read s).1
  | n + 1 => upcoming (read s).2 n

/-- The same readings are to come. -/
def Alike (s₁ : σ₁) (s₂ : σ₂) : Prop := ∀ n, upcoming s₁ n = upcoming s₂ n

theorem Alike.reading (h : Alike s₁ s₂) : (read s₁).1 = (read s₂).1 := h 0

theorem Alike.later (h : Alike s₁ s₂) : Alike (read s₁).2 (read s₂).2 := fun n => h (n + 1)

theorem upcoming_plain {σ : Type} [Source σ] (s : σ) (n : Nat) :
    upcoming (Feed.plain s) n = upcoming s n := by
  induction n generalizing s with
  | zero => rfl
  | succ n ih => exact ih (read s).2

theorem Alike.plain (h : Alike s₁ s₂) : Alike (Feed.plain s₁) (Feed.plain s₂) := fun n => by
  rw [upcoming_plain, upcoming_plain, h n]

end Source

/-! ## Filters that go on alike -/

namespace Conditioner

variable {σ₁ σ₂ : Type}

/-- Two seeded filters that are the same but for their sources, which read alike. -/
inductive Twin [Source σ₁] [Source σ₂] : Conditioner σ₁ → Conditioner σ₂ → Prop
  | mk {s₁ : σ₁} {s₂ : σ₂} {params : FilterParams} {state : FilterState}
    (halike : Source.Alike s₁ s₂) :
    Twin (.adaptive ⟨s₁, params, state, true⟩) (.adaptive ⟨s₂, params, state, true⟩)

variable [Source σ₁] [Source σ₂] {c₁ : Conditioner σ₁} {c₂ : Conditioner σ₂}

theorem Twin.started (h : Twin c₁ c₂) : c₁.Started ∧ c₂.Started := by
  cases h
  exact ⟨rfl, rfl⟩

theorem Twin.isDue_eq (h : Twin c₁ c₂) (now : Nat) : c₁.isDue now = c₂.isDue now := by
  cases h
  rfl

theorem Twin.value_eq (h : Twin c₁ c₂) : c₁.value = c₂.value := by
  cases h
  rfl

theorem Twin.precision_eq (h : Twin c₁ c₂) : c₁.precision = c₂.precision := by
  cases h
  rfl

theorem Twin.advance [Elementary] (h : Twin c₁ c₂) (now : Nat) :
    ∃ c₁' c₂', c₁.advance now = .ok c₁' ∧ c₂.advance now = .ok c₂' ∧ Twin c₁' c₂' := by
  cases h with
  | mk halike =>
    simp only [Conditioner.advance, halike.reading]
    exact ⟨_, _, rfl, rfl, .mk halike.later⟩

/-- Two filters that are seeded alike. -/
theorem Twin.seed {s₁ : σ₁} {s₂ : σ₂} (params : FilterParams) (h : Source.Alike s₁ s₂) :
    Twin (.adaptive (AdaptiveFilter.seed { source := s₁, params }))
      (.adaptive (AdaptiveFilter.seed { source := s₂, params })) := by
  simp only [AdaptiveFilter.seed, h.reading]
  exact .mk h.later

end Conditioner

/-- A quantizer is made up of its bits and its level. -/
theorem Hysteresis.ext_cleared {x y : Hysteresis} (h : x.cleared = y.cleared)
    (hlevel : x.level = y.level) : x = y := by
  obtain ⟨bits, inputBits, level⟩ := x
  obtain ⟨bits', inputBits', level'⟩ := y
  obtain ⟨rfl, rfl, -⟩ := Hysteresis.mk.inj h
  obtain rfl : level = level' := hlevel
  rfl

/-- The same value is seen of one level only. -/
theorem Channel.Shown.settled_eq {hysteresis₁ hysteresis₂ : Option Hysteresis}
    {conditioned seen : Nat} (h₁ : Shown hysteresis₁ conditioned seen)
    (h₂ : Shown hysteresis₂ conditioned seen)
    (hsame : hysteresis₁.map Hysteresis.cleared = hysteresis₂.map Hysteresis.cleared) :
    hysteresis₁.map (·.settled conditioned) = hysteresis₂.map (·.settled conditioned) := by
  cases hysteresis₁ with
  | none => rw [Option.map_eq_none_iff.mp hsame.symm]
  | some x =>
    obtain ⟨y, rfl, hcleared⟩ := Option.map_eq_some_iff.mp hsame.symm
    have hbits : y.bits = x.bits := (Hysteresis.mk.inj hcleared).1
    refine congrArg some (Hysteresis.ext_cleared ?_ ?_)
    · rw [x.cleared_settled, y.cleared_settled, hcleared]
    · rw [← (h₁.widened x rfl).level, ← (h₂.widened y rfl).level, x.settled_bits,
        y.settled_bits, hbits]

/-! ## Channels that go on alike -/

/-- A conditioned value and what the trigger sees in its place. -/
structure PolledValue where
  time : Nat
  conditioned : Nat
  seen : Nat
  deriving DecidableEq

namespace Channel

section Started

variable {σ : Type} [Source σ] [Elementary]

/-- The values of the polls that ticks at `times` make. -/
def polledValues (c : Channel σ) : List Nat → Checked (List PolledValue)
  | [] => .ok []
  | now :: times => do
    let (after, _) ← c.tick now
    let later ← after.polledValues times
    let polled : PolledValue :=
      { time := now, conditioned := after.conditioner.value, seen := after.value }
    return if c.conditioner.isDue now then polled :: later else later

/-- A new start, with the readings of another source to come. -/
def restart (c : Channel σ) (rest : σ) : Channel σ := (c.mapSource fun _ => rest).begin

end Started

section Agreement

variable {σ₁ σ₂ : Type} {config : ChannelConfig}

/-- How far two runs agree: in their polls and conditioned values always, in what the triggers see
from the first agreement on, and in their events if they agree from the first poll on. -/
structure Agreement (config : ChannelConfig) (c₁ : Channel σ₁) (c₂ : Channel σ₂)
    (polls₁ polls₂ : List PolledValue) (deliveries₁ deliveries₂ : List (List TimedEvent)) :
    Prop where
  conditioned : polls₁.map (fun p => (p.time, p.conditioned)) =
    polls₂.map fun p => (p.time, p.conditioned)
  kept : config.hysteresisBits = none ∨ config.hysteresisBits = some 0 ∨
    c₁.hysteresis = c₂.hysteresis → polls₁ = polls₂
  lasting : ∀ n : Nat, polls₁[n]? = polls₂[n]? → ∀ m : Nat, n ≤ m → polls₁[m]? = polls₂[m]?
  ends : ∀ (n : Nat) (p : PolledValue), polls₁[n]? = some p →
    p.conditioned = 0 ∨ p.conditioned = 2 ^ config.conditioning.precision - 1 →
      polls₂[n]? = some p
  events : c₁.trigger = c₂.trigger → polls₁.head? = polls₂.head? → deliveries₁ = deliveries₂

variable {c₁ d₁ : Channel σ₁} {c₂ d₂ : Channel σ₂} {now : Nat} {events₁ events₂ : List Event}
  {polls₁ polls₂ : List PolledValue} {deliveries₁ deliveries₂ : List (List TimedEvent)}

theorem Agreement.nil : Agreement config c₁ c₂ [] [] [] [] :=
  ⟨rfl, fun _ => rfl, fun _ _ _ _ => rfl, nofun, fun _ _ => rfl⟩

/-- A poll on both sides, before runs that agree. -/
theorem Agreement.cons (hconditioned : d₁.conditioner.value = d₂.conditioner.value)
    (haccurate₁ : config.Accurate d₁.conditioner.value d₁.value)
    (haccurate₂ : config.Accurate d₂.conditioner.value d₂.value)
    (hkept : c₁.hysteresis = c₂.hysteresis → d₁.value = d₂.value)
    (hmet : d₁.value = d₂.value → d₁.hysteresis = d₂.hysteresis)
    (hevents : d₁.value = d₂.value → c₁.trigger = c₂.trigger →
      d₁.trigger = d₂.trigger ∧ events₁ = events₂)
    (h : Agreement config d₁ d₂ polls₁ polls₂ deliveries₁ deliveries₂) :
    Agreement config c₁ c₂ (⟨now, d₁.conditioner.value, d₁.value⟩ :: polls₁)
      (⟨now, d₂.conditioner.value, d₂.value⟩ :: polls₂)
      (events₁.map (TimedEvent.mk now) :: deliveries₁)
      (events₂.map (TimedEvent.mk now) :: deliveries₂) := by
  -- Once the same is seen the levels have met, and all that follows is the same.
  have hpolls : d₁.value = d₂.value → polls₁ = polls₂ := fun hsame =>
    h.kept (.inr (.inr (hmet hsame)))
  have hhead : d₁.value = d₂.value → (⟨now, d₁.conditioner.value, d₁.value⟩ : PolledValue) =
      ⟨now, d₂.conditioner.value, d₂.value⟩ := fun hsame => by rw [hconditioned, hsame]
  refine ⟨?_, ?_, ?_, ?_, ?_⟩
  · rw [List.map_cons, List.map_cons, h.conditioned, hconditioned]
  · intro hlevel
    have hsame : d₁.value = d₂.value := by
      rcases or_assoc.mpr hlevel with hunbanded | hlevel
      · rw [haccurate₁.same hunbanded, haccurate₂.same hunbanded, hconditioned]
      · exact hkept hlevel
    rw [hhead hsame, hpolls hsame]
  · intro n hn m hm
    cases n with
    | zero =>
      have hsame : d₁.value = d₂.value := congrArg PolledValue.seen (Option.some.inj hn)
      rw [hhead hsame, hpolls hsame]
    | succ n =>
      cases m with
      | zero => exact absurd hm (Nat.not_succ_le_zero n)
      | succ m => exact h.lasting n hn m (Nat.le_of_succ_le_succ hm)
  · intro n p hp hend
    cases n with
    | zero =>
      obtain rfl := Option.some.inj hp
      have hsame : d₁.value = d₂.value := by
        rcases hend with hzero | hfull
        · rw [haccurate₁.zero hzero, haccurate₂.zero (hconditioned ▸ hzero)]
        · rw [haccurate₁.full hfull, haccurate₂.full (hconditioned ▸ hfull)]
      exact congrArg some (hhead hsame).symm
    | succ n => exact h.ends n p hp hend
  · intro htrigger hfirst
    have hsame : d₁.value = d₂.value := congrArg PolledValue.seen (Option.some.inj hfirst)
    obtain ⟨htrigger', rfl⟩ := hevents hsame htrigger
    rw [h.events htrigger' (congrArg List.head? (hpolls hsame))]

end Agreement

variable {σ₁ σ₂ : Type} [Source σ₁] [Source σ₂] [Elementary] {config : ChannelConfig}

/-- Two channels of one configuration whose filters go on alike. -/
structure Twins (config : ChannelConfig) (c₁ : Channel σ₁) (c₂ : Channel σ₂) : Prop where
  first : config.Served c₁
  second : config.Served c₂
  conditioners : Conditioner.Twin c₁.conditioner c₂.conditioner

/-- What a tick does to two such channels. -/
inductive TwinTick (config : ChannelConfig) (c₁ : Channel σ₁) (c₂ : Channel σ₂) (now : Nat)
    (d₁ : Channel σ₁) (events₁ : List Event) (d₂ : Channel σ₂) (events₂ : List Event) : Prop
  | early (hdue₁ : c₁.conditioner.isDue now = false) (hdue₂ : c₂.conditioner.isDue now = false)
    (hlast₁ : d₁ = c₁) (hlast₂ : d₂ = c₂) (hevents₁ : events₁ = []) (hevents₂ : events₂ = [])
  | polled (hdue₁ : c₁.conditioner.isDue now = true) (hdue₂ : c₂.conditioner.isDue now = true)
    (haccurate₁ : config.Accurate d₁.conditioner.value d₁.value)
    (haccurate₂ : config.Accurate d₂.conditioner.value d₂.value)
    (hkept : c₁.hysteresis = c₂.hysteresis → d₁.value = d₂.value)
    (hmet : d₁.value = d₂.value → d₁.hysteresis = d₂.hysteresis)
    (hevents : d₁.value = d₂.value → c₁.trigger = c₂.trigger →
      d₁.trigger = d₂.trigger ∧ events₁ = events₂)

theorem Twins.tick_eq_ok {c₁ : Channel σ₁} {c₂ : Channel σ₂} (h : Twins config c₁ c₂)
    (now : Nat) :
    ∃ d₁ events₁ d₂ events₂, c₁.tick now = .ok (d₁, events₁) ∧ c₂.tick now = .ok (d₂, events₂) ∧
      Twins config d₁ d₂ ∧ TwinTick config c₁ c₂ now d₁ events₁ d₂ events₂ := by
  obtain ⟨hserved₁, hserved₂, htwin⟩ := h
  obtain ⟨hstarted₁, hstarted₂⟩ := htwin.started
  obtain ⟨d₁, events₁, htick₁, hticked₁⟩ := hserved₁.tick_eq_ok now
  obtain ⟨d₂, events₂, htick₂, hticked₂⟩ := hserved₂.tick_eq_ok now
  have hlater₁ := hserved₁.ticked hticked₁
  have hlater₂ := hserved₂.ticked hticked₂
  refine ⟨d₁, events₁, d₂, events₂, htick₁, htick₂, ?_⟩
  -- The filters had their last poll at the same time, so that both poll or neither does.
  have hdue := htwin.isDue_eq now
  cases hticked₁ with
  | early hdue₁ =>
    cases hticked₂ with
    | early hdue₂ =>
      rw [Conditioner.awake_of_started hstarted₁] at hlater₁ ⊢
      rw [Conditioner.awake_of_started hstarted₂] at hlater₂ ⊢
      exact ⟨⟨hlater₁, hlater₂, htwin⟩, .early hdue₁ hdue₂ rfl rfl rfl rfl⟩
    | polled hdue₂ => exact absurd (hdue₁.symm.trans (hdue.trans hdue₂)) Bool.false_ne_true
  | @polled k₁ value₁ trigger₁ emitted₁ hdue₁ hadvance₁ hvalue₁ hquantize₁ hshown₁ heval₁ =>
    cases hticked₂ with
    | early hdue₂ => exact absurd (hdue₂.symm.trans (hdue.symm.trans hdue₁)) Bool.false_ne_true
    | @polled k₂ value₂ trigger₂ emitted₂ hdue₂ hadvance₂ hvalue₂ hquantize₂ hshown₂ heval₂ =>
      rw [Conditioner.awake_of_started hstarted₁] at hadvance₁
      rw [Conditioner.awake_of_started hstarted₂] at hadvance₂
      obtain ⟨k₁', k₂', hadvance₁', hadvance₂', htwin'⟩ := htwin.advance now
      obtain rfl := Checked.ok_unique hadvance₁ hadvance₁'
      obtain rfl := Checked.ok_unique hadvance₂ hadvance₂'
      have hvalues := htwin'.value_eq
      have haccurate₁ := hserved₁.accurate hvalue₁ hshown₁
      have haccurate₂ := hserved₂.accurate hvalue₂ hshown₂
      refine ⟨⟨hlater₁, hlater₂, htwin'⟩, .polled hdue₁ hdue₂ haccurate₁ haccurate₂ ?_ ?_ ?_⟩
      · intro hlevel
        rw [hlevel, hvalues, htwin.precision_eq] at hquantize₁
        exact (Checked.ok_unique_pair hquantize₁ hquantize₂).1
      · intro hsame
        obtain rfl : value₁ = value₂ := hsame
        dsimp only
        rw [hvalues] at hshown₁ ⊢
        exact hshown₁.settled_eq hshown₂ (hserved₁.quantizer.trans hserved₂.quantizer.symm)
      · intro hsame htrigger
        obtain rfl : value₁ = value₂ := hsame
        rw [htrigger] at heval₁
        obtain ⟨rfl, rfl⟩ := Checked.ok_unique_pair heval₁ heval₂
        exact ⟨rfl, rfl⟩

theorem polledValues_cons {σ : Type} [Source σ] {c d : Channel σ} {now : Nat} {times : List Nat}
    {events : List Event} {polls : List PolledValue} (htick : c.tick now = .ok (d, events))
    (hlater : d.polledValues times = .ok polls) :
    c.polledValues (now :: times) = .ok (if c.conditioner.isDue now then
      { time := now, conditioned := d.conditioner.value, seen := d.value } :: polls
        else polls) := by
  simp only [polledValues, htick, hlater, Checked.ok_bind]
  rfl

theorem run_tick {σ : Type} [Source σ] {c d last : Channel σ} {now : Nat} {times : List Nat}
    {events : List Event} {deliveries : List (List TimedEvent)}
    (htick : c.tick now = .ok (d, events))
    (hlater : d.run (times.map .tick) = .ok (last, deliveries)) :
    c.run ((now :: times).map .tick) = .ok (last, events.map (TimedEvent.mk now) :: deliveries) := by
  refine run_cons ?_ hlater
  simp only [call, htick, Checked.ok_bind]
  rfl

/-- Two channels whose filters go on alike run without faults, and agree. -/
theorem Twins.run_eq_ok {c₁ : Channel σ₁} {c₂ : Channel σ₂} (h : Twins config c₁ c₂)
    (times : List Nat) :
    ∃ d₁ deliveries₁ polls₁ d₂ deliveries₂ polls₂,
      c₁.run (times.map .tick) = .ok (d₁, deliveries₁) ∧ c₁.polledValues times = .ok polls₁ ∧
      c₂.run (times.map .tick) = .ok (d₂, deliveries₂) ∧ c₂.polledValues times = .ok polls₂ ∧
      Agreement config c₁ c₂ polls₁ polls₂ deliveries₁ deliveries₂ := by
  induction times generalizing c₁ c₂ with
  | nil => exact ⟨c₁, [], [], c₂, [], [], rfl, rfl, rfl, rfl, .nil⟩
  | cons now times ih =>
    obtain ⟨d₁, events₁, d₂, events₂, htick₁, htick₂, h', htwin⟩ := h.tick_eq_ok now
    obtain ⟨last₁, deliveries₁, polls₁, last₂, deliveries₂, polls₂, hrun₁, hpolls₁, hrun₂, hpolls₂,
      hagree⟩ := ih h'
    refine ⟨last₁, _, _, last₂, _, _, run_tick htick₁ hrun₁, polledValues_cons htick₁ hpolls₁,
      run_tick htick₂ hrun₂, polledValues_cons htick₂ hpolls₂, ?_⟩
    cases htwin with
    | early hdue₁ hdue₂ hlast₁ hlast₂ hevents₁ hevents₂ =>
      subst hlast₁ hlast₂ hevents₁ hevents₂
      rw [hdue₁, hdue₂]
      exact { hagree with events := fun htrigger hfirst => congrArg _ (hagree.events htrigger hfirst) }
    | polled hdue₁ hdue₂ haccurate₁ haccurate₂ hkept hmet hevents =>
      rw [if_pos hdue₁, if_pos hdue₂]
      exact .cons h'.conditioners.value_eq haccurate₁ haccurate₂ hkept hmet hevents hagree

end Channel

/-! ## A new start -/

namespace ChannelConfig.Served

variable {σ : Type} {config : ChannelConfig} {c : Channel σ}

theorem mapSource_served (h : config.Served c) (f : σ → σ) : config.Served (c.mapSource f) := by
  have hsource (feed : Feed σ) : (feed.mapSource f).limit? = feed.limit? := by cases feed <;> rfl
  obtain ⟨name, conditioner, hysteresis, trigger, value⟩ := c
  cases conditioner with
  | adaptive filter => exact { h with limit := (hsource filter.source).trans h.limit }
  | direct reader => exact { h with limit := (hsource reader.source).trans h.limit }

variable [Source σ]

theorem restart_served (h : config.Served c) (rest : σ) : config.Served (c.restart rest) :=
  (h.mapSource_served _).begin_served

/-- Of the filter only its settings are left. -/
theorem restart_conditioner (h : config.Served c) {params : FilterParams}
    (hadaptive : config.conditioning = .adaptive params) (hopen : config.validBelow = none)
    (rest : σ) : (c.restart rest).conditioner =
      .adaptive (AdaptiveFilter.seed { source := .plain rest, params }) := by
  have hsettings := h.conditioning.trans hadaptive
  have hlimit := h.limit.trans hopen
  obtain ⟨name, conditioner, hysteresis, trigger, value⟩ := c
  cases conditioner with
  | adaptive filter =>
    obtain ⟨source, params', state, seeded⟩ := filter
    obtain rfl := ConditionerConfig.adaptive.inj hsettings
    cases source with
    | plain source => rfl
    | guarded guard => exact nomatch hlimit
  | direct reader => exact nomatch hsettings

/-- Of the trigger only its settings are left. -/
theorem restart_trigger (h : config.Served c) (rest : σ) :
    (c.restart rest).trigger = config.trigger.atRest :=
  (Trigger.reset_eq h.gated).trans (congrArg _ h.settings)

end ChannelConfig.Served

/-- A new start forgets all but the level of the quantizer. Whatever two channels of one
configuration with a filter were told, once their sources have the same readings to come and they are
started, they poll at the same ticks and have the same conditioned values. Their triggers see the
same from the first value on that they agree in, which they do at the ends of the scale; and if they
agree from the first poll on, so do all events. Without a quantizer, with one that drops no bits, and
with the same levels they do. -/
theorem begin_forgets_all_but_level {σ₁ σ₂ : Type} [Source σ₁] [Source σ₂] [Elementary]
    {config : ChannelConfig} {params : FilterParams} (hv : config.validate = .ok ())
    (hf : config.Fits) (hadaptive : config.conditioning = .adaptive params)
    (hopen : config.validBelow = none) (source₁ : σ₁) (source₂ : σ₂)
    (history₁ history₂ : List ChannelCall) (rest₁ : σ₁) (rest₂ : σ₂)
    (hrest : Source.Alike rest₁ rest₂) :
    ∃ built₁ c₁ past₁ built₂ c₂ past₂,
      config.build source₁ = .ok built₁ ∧ built₁.run history₁ = .ok (c₁, past₁) ∧
      config.build source₂ = .ok built₂ ∧ built₂.run history₂ = .ok (c₂, past₂) ∧
      ∀ times : List Nat, ∃ d₁ deliveries₁ polls₁ d₂ deliveries₂ polls₂,
        (c₁.restart rest₁).run (times.map .tick) = .ok (d₁, deliveries₁) ∧
        (c₁.restart rest₁).polledValues times = .ok polls₁ ∧
        (c₂.restart rest₂).run (times.map .tick) = .ok (d₂, deliveries₂) ∧
        (c₂.restart rest₂).polledValues times = .ok polls₂ ∧
        polls₁.map (fun p => (p.time, p.conditioned)) =
          polls₂.map (fun p => (p.time, p.conditioned)) ∧
        (∀ n : Nat, polls₁[n]? = polls₂[n]? → ∀ m : Nat, n ≤ m → polls₁[m]? = polls₂[m]?) ∧
        (∀ (n : Nat) (p : PolledValue), polls₁[n]? = some p →
          p.conditioned = 0 ∨ p.conditioned = 2 ^ params.precision - 1 → polls₂[n]? = some p) ∧
        (polls₁.head? = polls₂.head? → deliveries₁ = deliveries₂) ∧
        (config.hysteresisBits = none ∨ config.hysteresisBits = some 0 ∨
          c₁.hysteresis = c₂.hysteresis → polls₁ = polls₂) := by
  obtain ⟨built₁, c₁, past₁, hbuild₁, hrun₁, hserved₁⟩ :=
    ChannelConfig.run_eq_ok hv hf source₁ history₁
  obtain ⟨built₂, c₂, past₂, hbuild₂, hrun₂, hserved₂⟩ :=
    ChannelConfig.run_eq_ok hv hf source₂ history₂
  have htwins : Channel.Twins config (c₁.restart rest₁) (c₂.restart rest₂) := by
    refine ⟨hserved₁.restart_served rest₁, hserved₂.restart_served rest₂, ?_⟩
    rw [hserved₁.restart_conditioner hadaptive hopen, hserved₂.restart_conditioner hadaptive hopen]
    exact .seed params hrest.plain
  have htrigger : (c₁.restart rest₁).trigger = (c₂.restart rest₂).trigger :=
    (hserved₁.restart_trigger rest₁).trans (hserved₂.restart_trigger rest₂).symm
  refine ⟨built₁, c₁, past₁, built₂, c₂, past₂, hbuild₁, hrun₁, hbuild₂, hrun₂, fun times => ?_⟩
  obtain ⟨d₁, deliveries₁, polls₁, d₂, deliveries₂, polls₂, hrun₁, hpolls₁, hrun₂, hpolls₂,
    hagree⟩ := htwins.run_eq_ok times
  have hends := hagree.ends
  rw [hadaptive] at hends
  exact ⟨d₁, deliveries₁, polls₁, d₂, deliveries₂, polls₂, hrun₁, hpolls₁, hrun₂, hpolls₂,
    hagree.conditioned, hagree.lasting, hends, hagree.events htrigger, hagree.kept⟩

/-- A knob whose value is the distance from rest, with the last bit dropped. -/
def coarseKnob : ChannelConfig where
  name := "knob"
  conditioning := .adaptive
    { pollInterval := 0, smoothing := 1, deltaMax := 127, outputSmoothing := 1 }
  hysteresisBits := some 1
  trigger := .continuous {}
  output := .controlChange 0 7

theorem coarseKnob_forgets_all_but_level :
    coarseKnob.validate = .ok () ∧ coarseKnob.Fits ∧
      ∃ (built₁ c₁ built₂ c₂ : Channel Scripted) (past₁ past₂ : List (List TimedEvent))
        (polls₁ polls₂ : List PolledValue), letI := Elementary.linked
        coarseKnob.build (Scripted.ofList [0, 3]) = .ok built₁ ∧
        built₁.run [.tick 1] = .ok (c₁, past₁) ∧
        coarseKnob.build (Scripted.ofList [0, 0]) = .ok built₂ ∧
        built₂.run [.tick 1] = .ok (c₂, past₂) ∧
        (c₁.restart (Scripted.ofList [0, 2, 0])).polledValues [2, 3] = .ok polls₁ ∧
        (c₂.restart (Scripted.ofList [0, 2, 0])).polledValues [2, 3] = .ok polls₂ ∧
        polls₁.map (fun p => (p.time, p.conditioned)) =
          polls₂.map (fun p => (p.time, p.conditioned)) := by
  let _ := Elementary.linked
  have hv : coarseKnob.validate = .ok () := Checked.eq_ok_of_isOk (by decide +kernel)
  have hf : coarseKnob.Fits := by decide
  obtain ⟨built₁, c₁, past₁, built₂, c₂, past₂, hbuild₁, hrun₁, hbuild₂, hrun₂, hstart⟩ :=
    begin_forgets_all_but_level hv hf rfl rfl (Scripted.ofList [0, 3]) (Scripted.ofList [0, 0])
      [.tick 1] [.tick 1] (Scripted.ofList [0, 2, 0]) (Scripted.ofList [0, 2, 0]) fun _ => rfl
  obtain ⟨_, _, polls₁, _, _, polls₂, -, hpolls₁, -, hpolls₂, hsame, -⟩ := hstart [2, 3]
  exact ⟨hv, hf, built₁, c₁, built₂, c₂, past₁, past₂, polls₁, polls₂, hbuild₁, hrun₁, hbuild₂,
    hrun₂, hpolls₁, hpolls₂, hsame⟩

/-- The events of ticks at `times`, of a channel that was told `history` and was started anew. -/
def ChannelConfig.eventsAfterStart [Elementary] (config : ChannelConfig)
    (source : Scripted) (history : List ChannelCall) (rest : Scripted) (times : List Nat) :
    Option (Checked (List TimedEvent)) :=
  (config.build source).toOption.map fun built => do
    let (c, _) ← built.run history
    let (_, deliveries) ← (c.restart rest).run (times.map .tick)
    return deliveries.flatten

/-- A knob that was turned once is two steps up after a start, where one that was not is at zero. -/
theorem coarseKnob_remembers :
    coarseKnob.validate = .ok () ∧ coarseKnob.Fits ∧
      (∃ params, coarseKnob.conditioning = .adaptive params) ∧ coarseKnob.validBelow = none ∧
      letI := Elementary.linked
      coarseKnob.eventsAfterStart (Scripted.ofList [0, 3]) [.tick 1] (Scripted.ofList [0, 2]) [2] =
        some (.ok [⟨2, .update 2⟩]) ∧
      coarseKnob.eventsAfterStart (Scripted.ofList [0, 0]) [.tick 1] (Scripted.ofList [0, 2]) [2] =
        some (.ok [⟨2, .update 0⟩]) := by
  refine ⟨Checked.eq_ok_of_isOk (by decide +kernel), by decide, ⟨_, rfl⟩, rfl, ?_, ?_⟩
  · decide +kernel
  · decide +kernel

end SensorEvents
