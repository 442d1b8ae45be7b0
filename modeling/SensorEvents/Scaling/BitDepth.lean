import SensorEvents.Fault

/-!
# Bit depths

A reading of one bit depth is widened by repeating its bits, so that zero stays zero and full
scale stays full scale, and narrowed by dropping its low bits. Depths are not limited to the
32 bits of a reading; a shift that no 64-bit word allows is a fault.
-/
namespace SensorEvents.BitDepth

open Checked (shiftLeft64 shiftRight64 shiftRight32)

/-- The largest reading of `bits` bits. -/
def largest (bits : Nat) : Nat :=
  if 32 ≤ bits then Checked.max32 else 1 <<< bits - 1

/-- The copies of `value`, each `step` bits wide, that fill the lowest `remaining` bits. The last
copy is cut at the bottom. -/
def copies (value step remaining : Nat) : Checked Nat :=
  if remaining = 0 then
    .ok 0
  else if _h : 0 < step ∧ step ≤ remaining then do
    let top ← shiftLeft64 value (remaining - step)
    let rest ← copies value step (remaining - step)
    return top ||| rest
  else
    shiftRight64 value (step - remaining)
termination_by remaining
decreasing_by omega

/-- Widen a reading; one that is wide enough stays as it is. -/
def widen (value fromBits toBits : Nat) : Checked Nat :=
  if fromBits = 0 ∨ toBits ≤ fromBits then
    .ok value
  else do
    let filled ← copies (value &&& largest fromBits) fromBits toBits
    return filled % (1 <<< 32)

/-- Narrow a reading by dropping low bits; one that is narrow enough stays as it is. -/
def narrow (value fromBits toBits : Nat) : Checked Nat :=
  if fromBits ≤ toBits then
    .ok value
  else
    shiftRight32 (value &&& largest fromBits) (fromBits - toBits)

def rescale (value fromBits toBits : Nat) : Checked Nat :=
  if fromBits < toBits then widen value fromBits toBits else narrow value fromBits toBits

end SensorEvents.BitDepth
