/-!
# Binary floating-point numbers as integers

A number without sign is `mantissa * 2 ^ exponent`. `Binary.round` brings a ratio to a precision,
to nearest and a tie to the even mantissa. `toSingle` and `ofSingle?` go to and from the 32-bit
encoding.
-/
namespace SensorEvents

/-- The number `mantissa * 2 ^ exponent`. -/
structure Binary where
  mantissa : Nat
  exponent : Int
  deriving DecidableEq, Repr

/-- How many bits a mantissa has, and the exponent of the smallest unit, below which nothing is
kept. -/
structure Precision where
  bits : Nat
  least : Int
  deriving DecidableEq, Repr

namespace Precision

def single : Precision := ⟨24, -149⟩

def double : Precision := ⟨53, -1074⟩

end Precision

namespace Binary

/-- The ratio `num / den / 2 ^ e`, as numerator and denominator. -/
def scaled (num den : Nat) : Int → Nat × Nat
  | .ofNat e => (num, den <<< e)
  | .negSucc e => (num <<< (e + 1), den)

def ratio (x : Binary) : Nat × Nat := scaled x.mantissa 1 (-x.exponent)

/-- The natural number nearest to `num / den`; a tie goes to the even one. -/
def nearestEven (num den : Nat) : Nat :=
  let whole := num / den
  let twice := 2 * (num % den)
  if den < twice ∨ (twice = den ∧ whole % 2 = 1) then whole + 1 else whole

/-- The exponent of the highest bit of `num / den`. -/
def magnitude (num den : Nat) : Int :=
  let guess : Int := (num.log2 : Int) - den.log2
  let (n, d) := scaled num den guess
  if n < d then guess - 1 else guess

/-- Round `num / den` to a precision. -/
def round (p : Precision) (num den : Nat) : Binary :=
  if num = 0 then
    ⟨0, p.least⟩
  else
    let exponent := max p.least (magnitude num den - (p.bits - 1))
    let (n, d) := scaled num den exponent
    let mantissa := nearestEven n d
    if mantissa = 1 <<< p.bits then ⟨1 <<< (p.bits - 1), exponent + 1⟩ else ⟨mantissa, exponent⟩

/-- Whether a number rounded to double precision is too large for it. -/
def exceedsDouble (x : Binary) : Bool :=
  x.mantissa ≠ 0 ∧ 1024 ≤ (x.mantissa.log2 : Int) + x.exponent

/-- The single-precision number nearest to `num / den`, infinite when that is too large. -/
def toSingle (negative : Bool) (num den : Nat) : Float32 :=
  let rounded := round .single num den
  let field := (rounded.exponent + 149).toNat
  let bits := if 0xFF < field then 0x7F800000 else min 0x7F800000 (field <<< 23 + rounded.mantissa)
  Float32.ofBits (if negative then bits + 0x80000000 else bits).toUInt32

/-- What a single-precision number is without its sign; `none` for an infinity or NaN. -/
def ofSingle? (x : Float32) : Option Binary :=
  let bits := x.toBits.toNat
  let field := bits >>> 23 &&& 0xFF
  let fraction := bits % (1 <<< 23)
  if field = 0xFF then none
  else if field = 0 then some ⟨fraction, -149⟩
  else some ⟨1 <<< 23 + fraction, (field : Int) - 150⟩

end Binary

end SensorEvents
