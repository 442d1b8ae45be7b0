import SensorEvents.Config.Error
import SensorEvents.Fault

/-!
# Input ranges

Every trigger runs its value through an `InputRange` first, so thresholds are always in the
trigger's own domain `0 … outputMax`. A range either clips the value to that domain or maps a
range of readings to it, and may turn it upside down.

`WholeRange.map` is the linear map between ranges of whole numbers. The quotient is cut toward zero
and the result is kept inside the output range, so a reading outside the input range ends at the
nearer end. The product is formed in 64 signed bits: ranges near the whole width of a reading can
leave it, and then there is no result.
-/
namespace SensorEvents

namespace WholeRange

open Checked (int64)

/-- Map `x` from the range `inMin … inMax` to `outMin … outMax`. Either range may run downwards,
and an input range of one point goes to `outMin`. -/
def map (x inMin inMax outMin outMax : Nat) : Checked Nat :=
  if inMin = inMax then
    .ok outMin
  else do
    let product ← int64 (((x : Int) - inMin) * ((outMax : Int) - outMin))
    let quotient ← int64 (product.tdiv ((inMax : Int) - inMin))
    let mapped ← int64 (quotient + outMin)
    let lower := min outMin outMax
    let upper := max outMin outMax
    return (max (lower : Int) (min mapped upper)).toNat

end WholeRange

/-- What a trigger does to a value before it looks at it. -/
structure InputRange where
  minInput : Option Nat := none
  maxInput : Option Nat := none
  invert : Bool := false
  outputMax : Nat := 127
  deriving DecidableEq, Repr

namespace InputRange

/-- Clip to `0 … outputMax`. -/
def native (outputMax : Nat) : InputRange := { outputMax }

def widest : Nat := 0x3FFF

/-- The domain has at least two values and at most 14 bits, and a mapped range has both ends, in
order. -/
def validate (r : InputRange) : Accepted Unit :=
  if r.outputMax = 0 ∨ r.outputMax > widest then
    .error (.outputRange r.outputMax)
  else
    match r.minInput, r.maxInput with
    | some low, some high => if low ≥ high then .error (.inputRange low high) else .ok ()
    | some low, none => .error (.inputRange low 0)
    | none, some high => .error (.inputRange 0 high)
    | none, none => .ok ()

/-- Map the readings `low … high` to `0 … 127`. -/
def remap (low high : Nat) : Accepted InputRange := do
  let r : InputRange := { minInput := some low, maxInput := some high }
  r.validate
  return r

def inverted (r : InputRange) : InputRange := { r with invert := true }

def withOutputMax (r : InputRange) (outputMax : Nat) : InputRange := { r with outputMax }

/-- Whether a range of readings is mapped, rather than clipped. -/
def isRemapping (r : InputRange) : Bool := r.minInput.isSome && r.maxInput.isSome

def apply (r : InputRange) (value : Nat) : Checked Nat :=
  match r.minInput, r.maxInput with
  | some low, some high => do
    let clipped ← Checked.clamp value low high
    if r.invert then WholeRange.map clipped low high r.outputMax 0
    else WholeRange.map clipped low high 0 r.outputMax
  | _, _ =>
    let clipped := min value r.outputMax
    if r.invert then Checked.sub r.outputMax clipped else .ok clipped

end InputRange

end SensorEvents
