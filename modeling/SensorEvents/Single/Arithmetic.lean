import SensorEvents.Fault

/-!
# Single-precision arithmetic

Signals are 32-bit floating-point numbers. Sums, products, quotients and comparisons are those of
`Float32`; this module adds the selections and conversions the signal path needs, written with
comparisons alone so that each branch can be read off. `nearestNat` is bounded by its limit for
every argument, also for NaN.
-/
namespace SensorEvents.Single

/-- The distance from one to the next larger number. -/
def epsilon : Float32 := Float32.ofBits 0x34000000

/-- The number nearest to a 64-bit natural number. -/
def ofNat (n : Nat) : Float32 := n.toUInt64.toFloat32

/-- The larger of two numbers; a NaN loses against a number, and of equal numbers the second is
taken. -/
def larger (x y : Float32) : Float32 :=
  if y.isNaN then x else if y < x then x else y

/-- The smaller of two numbers; a NaN loses against a number, and of equal numbers the second is
taken. -/
def smaller (x y : Float32) : Float32 :=
  if y.isNaN then x else if x < y then x else y

/-- Move `x` to the nearer bound when it is outside `[lo, hi]`; a NaN stays. -/
def limit (x lo hi : Float32) : Float32 :=
  let raised := if x < lo then lo else x
  if hi < raised then hi else raised

/-- `limit` with bounds that come from data, and that may be out of order or NaN. -/
def clamp (x lo hi : Float32) : Checked Float32 :=
  if lo ≤ hi then .ok (limit x lo hi) else .error .clampBounds

/-- Cut toward zero and keep within a byte; a NaN is zero. -/
def toByte (x : Float32) : Nat := x.toUInt8.toNat

/-- The natural number nearest to `x`, a half going up, kept at or below `bound`. Numbers below
zero and NaN are zero. -/
def nearestNat (x : Float32) (bound : Nat) : Nat :=
  let whole := x.toUInt32
  let half := x - whole.toFloat32 ≥ 0.5
  min bound (if half then whole.toNat + 1 else whole.toNat)

theorem nearestNat_le (x : Float32) (bound : Nat) : nearestNat x bound ≤ bound :=
  Nat.min_le_left ..

end SensorEvents.Single
