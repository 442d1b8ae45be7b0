import SensorEvents.Proofs.Accepted
import SensorEvents.Scaling.BitDepth

/-!
# Whole-number scaling without faults

When a checked step of whole numbers has a result, and with which. Bit depths up to the width of a
reading can be changed into one another.
-/
namespace SensorEvents

namespace Checked

theorem int64_eq_ok {z : Int} (h : z.natAbs < 2 ^ 63) : int64 z = .ok z :=
  if_pos (by omega)

theorem shiftLeft64_eq_ok {a amount : Nat} (h : amount < 64) :
    shiftLeft64 a amount = .ok (a <<< amount % 2 ^ 64) := if_pos h

theorem shiftRight64_eq_ok {a amount : Nat} (h : amount < 64) :
    shiftRight64 a amount = .ok (a >>> amount) := if_pos h

theorem shiftRight32_eq_ok {a amount : Nat} (h : amount < 32) :
    shiftRight32 a amount = .ok (a >>> amount) := if_pos h

theorem sub_eq_ok {a b : Nat} (h : b ≤ a) : sub a b = .ok (a - b) := if_pos h

theorem add32_eq_ok {a b : Nat} (h : a + b ≤ max32) : add32 a b = .ok (a + b) := if_pos h

theorem add64_eq_ok {a b : Nat} (h : a + b ≤ max64) : add64 a b = .ok (a + b) := if_pos h

theorem clamp_eq_ok {x lo hi : Nat} (h : lo ≤ hi) : clamp x lo hi = .ok (max lo (min x hi)) :=
  if_pos h

end Checked

/-- What is left of a positive amount after one portion needs one portion less. -/
theorem ceilDiv_eq_succ {left portion : Nat} (hleft : 0 < left) (hportion : 0 < portion) :
    left ⌈/⌉ portion = (left - portion) ⌈/⌉ portion + 1 := by
  rw [Nat.ceilDiv_eq_add_pred_div, Nat.ceilDiv_eq_add_pred_div]
  rcases Nat.le_total portion left with hlong | hshort
  · have hsplit : left + portion - 1 = left - portion + portion - 1 + portion := by omega
    rw [hsplit, Nat.add_div_right _ hportion]
  · rw [Nat.sub_eq_zero_of_le hshort, Nat.div_eq_of_lt (by omega : 0 + portion - 1 < portion)]
    exact Nat.div_eq_of_lt_le (by omega) (by omega)

namespace BitDepth

theorem largest_eq {bits : Nat} (h : bits ≤ 32) : largest bits = 2 ^ bits - 1 := by
  unfold largest
  split_ifs with hfull
  · rw [Nat.le_antisymm h hfull]
    rfl
  · rw [Nat.one_shiftLeft]

/-- The copies fill a word of at most 64 bits without a shift by its width. -/
theorem copies_eq_ok {step : Nat} (hpos : 0 < step) (hstep : step < 64) (value : Nat) :
    ∀ remaining ≤ 64, ∃ v, copies value step remaining = .ok v := by
  intro remaining
  induction remaining using Nat.strongRecOn with
  | ind remaining ih =>
    intro hle
    unfold copies
    by_cases hzero : remaining = 0
    · exact ⟨0, if_pos hzero⟩
    rw [if_neg hzero]
    by_cases hfit : 0 < step ∧ step ≤ remaining
    · obtain ⟨rest, hrest⟩ := ih (remaining - step) (by omega) (by omega)
      rw [dif_pos hfit, Checked.shiftLeft64_eq_ok (by omega), Checked.ok_bind, hrest]
      exact ⟨_, rfl⟩
    · rw [dif_neg hfit]
      exact ⟨_, Checked.shiftRight64_eq_ok (by omega)⟩

theorem widen_eq_ok (value fromBits : Nat) {toBits : Nat} (hto : toBits ≤ 64) :
    ∃ v, widen value fromBits toBits = .ok v := by
  unfold widen
  by_cases h : fromBits = 0 ∨ toBits ≤ fromBits
  · exact ⟨value, if_pos h⟩
  obtain ⟨v, hv⟩ := copies_eq_ok (show 0 < fromBits by omega) (by omega)
    (value &&& largest fromBits) toBits hto
  rw [if_neg h, hv]
  exact ⟨_, rfl⟩

theorem narrow_eq_ok (value : Nat) {fromBits toBits : Nat} (hfrom : fromBits ≤ 32) (hto : 0 < toBits) :
    ∃ v, narrow value fromBits toBits = .ok v := by
  unfold narrow
  by_cases h : fromBits ≤ toBits
  · exact ⟨value, if_pos h⟩
  rw [if_neg h]
  exact ⟨_, Checked.shiftRight32_eq_ok (by omega)⟩

/-- Readings of at most 32 bits can be brought to every depth a reading has. -/
theorem rescale_eq_ok (value : Nat) {fromBits toBits : Nat} (hfrom : fromBits ≤ 32)
    (hpos : 0 < toBits) (hto : toBits ≤ 64) : ∃ v, rescale value fromBits toBits = .ok v := by
  unfold rescale
  split
  · exact widen_eq_ok value fromBits hto
  · exact narrow_eq_ok value hfrom hpos

end BitDepth

end SensorEvents
