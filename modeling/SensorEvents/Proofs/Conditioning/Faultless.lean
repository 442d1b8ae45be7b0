import SensorEvents.Conditioning.Conditioner
import SensorEvents.Conditioning.Hysteresis
import SensorEvents.Proofs.Scaling.Widening

/-!
# Conditioning without faults

A conditioner keeps its settings, and accepted settings are all that a poll needs. A quantizer
needs besides that its level is one that its input can have; `Hysteresis.Sound` says so, and a
quantizer starts with it and keeps it.
-/
namespace SensorEvents

theorem BitDepth.largest_lt (bits : Nat) : largest bits < 2 ^ 32 := by
  unfold largest
  split_ifs with h
  · decide
  · have := Nat.pow_le_pow_right (show 2 > 0 by decide) (Nat.le_of_lt (Nat.not_le.mp h))
    omega

namespace Hysteresis

/-- Some bits remain, and the level is one of the input. -/
structure Sound (h : Hysteresis) : Prop where
  remain : h.bits < h.inputBits
  input : h.inputBits ≤ 32
  level : h.level ≤ BitDepth.largest h.inputBits >>> h.bits

variable {h : Hysteresis}

theorem build_sound {bits inputBits : Nat} (hb : Hysteresis.build bits inputBits = .ok h) :
    h.Sound := by
  obtain ⟨⟨-, hin⟩, hlt, rfl⟩ := build_eq_ok.mp hb
  exact ⟨hlt, hin, Nat.zero_le _⟩

/-- The highest level. -/
def topLevel (h : Hysteresis) : Nat := BitDepth.largest h.inputBits / 2 ^ h.bits

/-- The middle of the values that have the level. -/
def centre (h : Hysteresis) : Nat := h.level * 2 ^ h.bits + 2 ^ (h.bits - 1)

/-- How far the band reaches from the middle. -/
def margin (h : Hysteresis) : Nat := 2 ^ h.bits - 1

/-- The lowest value at which the level is held. -/
def lowest (h : Hysteresis) : Nat :=
  if h.bits = 0 then h.level else if 0 < h.level then h.centre - h.margin else 0

/-- The highest value at which the level is held. -/
def highest (h : Hysteresis) : Nat :=
  if h.bits = 0 then h.level
  else if h.level < h.topLevel then h.centre + h.margin else BitDepth.largest h.inputBits

theorem Sound.level_le (hs : h.Sound) : h.level ≤ h.topLevel := by
  have hlevel := hs.level
  rwa [Nat.shiftRight_eq_div_pow] at hlevel

/-- The level, brought back to the place of its bits, is a value of the input. -/
theorem Sound.base_le (hs : h.Sound) : h.level * 2 ^ h.bits ≤ BitDepth.largest h.inputBits :=
  (Nat.le_div_iff_mul_le (Nat.two_pow_pos _)).mp hs.level_le

theorem one_shiftLeft_mod {n : Nat} (hn : n < 64) : 1 <<< n % 2 ^ 64 = 2 ^ n := by
  rw [Nat.one_shiftLeft]
  exact Nat.mod_eq_of_lt (Nat.pow_lt_pow_right (by decide) hn)

/-- The margin below a level that is not the lowest fits under its centre. -/
theorem margin_le_centre (h : Hysteresis) (hlevel : 0 < h.level) : h.margin ≤ h.centre :=
  calc h.margin ≤ 2 ^ h.bits := Nat.sub_le ..
    _ ≤ h.level * 2 ^ h.bits := Nat.le_mul_of_pos_left _ hlevel
    _ ≤ h.centre := Nat.le_add_right ..

/-- The margin above a level does not leave the word. -/
theorem Sound.centre_add_margin_le (hs : h.Sound) : h.centre + h.margin ≤ Checked.max64 := by
  have hbase := Nat.lt_of_le_of_lt hs.base_le (BitDepth.largest_lt h.inputBits)
  have hremain := hs.remain
  have hinput := hs.input
  have hhalf : 2 ^ (h.bits - 1) < 2 ^ 32 := Nat.pow_lt_pow_right (by decide) (by omega)
  have hstep : 2 ^ h.bits < 2 ^ 33 := Nat.pow_lt_pow_right (by decide) (by omega)
  simp only [centre, margin, Checked.max64]
  omega

theorem Sound.band_eq (hs : h.Sound) : h.band = .ok (h.lowest, h.highest) := by
  have hremain := hs.remain
  have hinput := hs.input
  have hhigh := hs.centre_add_margin_le
  unfold band lowest highest
  by_cases hzero : h.bits = 0
  · rw [if_pos hzero, if_pos hzero, if_pos hzero]
  have hlevel : h.level <<< h.bits % 2 ^ 64 = h.level <<< h.bits := by
    have hbase := Nat.lt_of_le_of_lt hs.base_le (BitDepth.largest_lt h.inputBits)
    rw [Nat.shiftLeft_eq]
    exact Nat.mod_eq_of_lt (by omega)
  have hcentre : h.level <<< h.bits ||| 2 ^ (h.bits - 1) = h.centre :=
    BitDepth.shiftLeft_or (Nat.pow_lt_pow_right (by decide) (by omega))
  rw [if_neg hzero, if_neg hzero, if_neg hzero]
  simp only [Checked.shiftRight64_eq_ok (show h.bits < 64 by omega),
    Checked.shiftLeft64_eq_ok (show h.bits - 1 < 64 by omega),
    Checked.shiftLeft64_eq_ok (show h.bits < 64 by omega), Checked.ok_bind,
    one_shiftLeft_mod (show h.bits < 64 by omega),
    one_shiftLeft_mod (show h.bits - 1 < 64 by omega), hlevel,
    Checked.sub_eq_ok (Nat.one_le_two_pow (n := h.bits)), hcentre, Nat.shiftRight_eq_div_pow]
  change (do
    let lower ← if 0 < h.level then Checked.sub h.centre h.margin else .ok 0
    let upper ← if h.level < h.topLevel then Checked.add64 h.centre h.margin
      else .ok (BitDepth.largest h.inputBits)
    return (lower, upper)) = _
  rw [Checked.add64_eq_ok hhigh]
  by_cases hpos : 0 < h.level
  · rw [if_pos hpos, if_pos hpos, Checked.sub_eq_ok (h.margin_le_centre hpos)]
    split_ifs <;> rfl
  · rw [if_neg hpos, if_neg hpos]
    split_ifs <;> rfl

/-- The quantizer after a value that is one of its input. -/
def settled (h : Hysteresis) (value : Nat) : Hysteresis :=
  if value < h.lowest ∨ h.highest < value then { h with level := value / 2 ^ h.bits } else h

/-- A value outside the band of the level that is held. -/
def Leaves (h : Hysteresis) (value : Nat) : Prop := value < h.lowest ∨ h.highest < value

instance (h : Hysteresis) (value : Nat) : Decidable (h.Leaves value) :=
  inferInstanceAs (Decidable (_ ∨ _))

theorem settled_of_leaves {value : Nat} (hleaves : h.Leaves value) :
    h.settled value = { h with level := value / 2 ^ h.bits } := if_pos hleaves

theorem settled_of_stays {value : Nat} (hstays : ¬ h.Leaves value) : h.settled value = h :=
  if_neg hstays

/-- A quantizer reports just when a value leaves the band. -/
theorem Sound.update_eq_leaves (hs : h.Sound) (value : Nat) :
    h.update value = .ok (decide (h.Leaves (min value (BitDepth.largest h.inputBits))),
      h.settled (min value (BitDepth.largest h.inputBits))) := by
  have hremain := hs.remain
  have hinput := hs.input
  unfold update
  rw [hs.band_eq, Checked.ok_bind]
  by_cases hleaves : h.Leaves (min value (BitDepth.largest h.inputBits))
  · rw [decide_eq_true hleaves, settled_of_leaves hleaves, ← Nat.shiftRight_eq_div_pow]
    refine (if_pos hleaves).trans ?_
    rw [Checked.shiftRight64_eq_ok (by omega), Checked.ok_bind]
    rfl
  · rw [decide_eq_false hleaves, settled_of_stays hleaves]
    exact if_neg hleaves

theorem Sound.update_eq (hs : h.Sound) (value : Nat) :
    ∃ changed, h.update value =
      .ok (changed, h.settled (min value (BitDepth.largest h.inputBits))) :=
  ⟨_, hs.update_eq_leaves value⟩

theorem settled_bits (h : Hysteresis) (value : Nat) : (h.settled value).bits = h.bits := by
  unfold settled
  split_ifs <;> rfl

theorem settled_inputBits (h : Hysteresis) (value : Nat) :
    (h.settled value).inputBits = h.inputBits := by
  unfold settled
  split_ifs <;> rfl

theorem Sound.settled_sound (hs : h.Sound) {value : Nat} (hvalue : value ≤ BitDepth.largest h.inputBits) :
    (h.settled value).Sound := by
  unfold settled
  split_ifs
  · refine ⟨hs.remain, hs.input, ?_⟩
    rw [Nat.shiftRight_eq_div_pow]
    exact Nat.div_le_div_right hvalue
  · exact hs

/-- A quantizer takes every value and keeps its bits. -/
theorem Sound.update_eq_ok (hs : h.Sound) (value : Nat) :
    ∃ changed h', h.update value = .ok (changed, h') ∧ h'.Sound ∧ h'.bits = h.bits ∧
      h'.inputBits = h.inputBits := by
  obtain ⟨changed, hupdate⟩ := hs.update_eq value
  exact ⟨changed, _, hupdate, hs.settled_sound (Nat.min_le_right ..), h.settled_bits _,
    h.settled_inputBits _⟩

theorem Sound.outputBits_eq_ok (hs : h.Sound) : h.outputBits = .ok (h.inputBits - h.bits) :=
  Checked.sub_eq_ok (Nat.le_of_lt hs.remain)

end Hysteresis

/-- Accepted settings of an adaptive filter have a precision. -/
theorem FilterParams.precision_of_validate {p : FilterParams} (h : p.validate = .ok ()) :
    0 < p.precision ∧ p.precision ≤ maxPrecision :=
  checkPrecision_eq_ok.mp (Checked.seq_eq_ok.mp h).1

theorem ConditionerConfig.precision_of_validate {c : ConditionerConfig}
    (h : c.validate = .ok ()) : 0 < c.precision ∧ c.precision ≤ maxPrecision := by
  cases c with
  | adaptive params => exact FilterParams.precision_of_validate h
  | direct params => exact (DirectParams.validate_eq_ok.mp h).2

/-- A poll leaves the settings of a filter alone. -/
theorem AdaptiveFilter.poll_params {σ : Type} [Source σ] [Elementary] (f : AdaptiveFilter σ)
    (now : Nat) : (f.poll now).2.params = f.params := by
  unfold poll
  cases f.seeded with
  | true => simp only [if_true]; split_ifs <;> rfl
  | false => simp only [Bool.false_eq_true, if_false]; split_ifs <;> rfl

namespace Conditioner

variable {σ : Type}

/-- The settings in force. -/
def config : Conditioner σ → ConditionerConfig
  | adaptive filter => .adaptive filter.params
  | direct reader => .direct reader.params

theorem precision_eq (c : Conditioner σ) : c.precision = c.config.precision := by cases c <;> rfl

variable [Source σ]

theorem config_begin (c : Conditioner σ) : c.begin.config = c.config := by cases c <;> rfl

theorem config_resetBaseline (c : Conditioner σ) : c.resetBaseline.config = c.config := by
  cases c with
  | adaptive filter =>
    simp only [resetBaseline, config, AdaptiveFilter.resetBaseline, AdaptiveFilter.seed]
    split_ifs <;> rfl
  | direct reader => rfl

/-- A poll of accepted settings has a result and keeps them. -/
theorem poll_eq_ok [Elementary] {c : Conditioner σ} (h : c.config.validate = .ok ()) (now : Nat) :
    ∃ polled c', c.poll now = .ok (polled, c') ∧ c'.config = c.config := by
  cases c with
  | adaptive filter =>
    exact ⟨_, .adaptive (filter.poll now).2, rfl,
      congrArg ConditionerConfig.adaptive (filter.poll_params now)⟩
  | direct reader =>
    obtain ⟨⟨-, hin⟩, hpos, hle⟩ := DirectParams.validate_eq_ok.mp h
    unfold maxPrecision at hle
    simp only [poll, DirectReader.poll]
    split_ifs
    · obtain ⟨value, hvalue⟩ := BitDepth.rescale_eq_ok
        (min (Source.read reader.source).1 (BitDepth.largest reader.params.inputBits))
        hin hpos (show reader.params.precision ≤ 64 by omega)
      simp only [hvalue, Checked.ok_bind]
      exact ⟨_, _, rfl, rfl⟩
    · exact ⟨_, _, rfl, rfl⟩

end Conditioner

namespace ConditionerConfig

variable {σ : Type} {c : ConditionerConfig}

/-- The conditioner of settings before its first poll. -/
def atRest (c : ConditionerConfig) (source : σ) : Conditioner σ :=
  match c with
  | adaptive params => .adaptive { source, params }
  | direct params => .direct { source, params }

theorem config_atRest (c : ConditionerConfig) (source : σ) : (c.atRest source).config = c := by
  cases c <;> rfl

/-- A conditioner is built from accepted settings. -/
theorem build_eq [Source σ] (h : c.validate = .ok ()) (source : σ) :
    c.build source = .ok (c.atRest source) := by
  cases c with
  | adaptive params =>
    exact congrArg (Conditioner.adaptive <$> ·) (AdaptiveFilter.build_eq h source)
  | direct params =>
    have hv : params.validate = .ok () := h
    simp only [build, DirectReader.build, hv, Checked.ok_bind]
    rfl

end ConditionerConfig

end SensorEvents
