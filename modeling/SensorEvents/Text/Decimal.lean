import SensorEvents.Single.Binary

/-!
# Decimal numbers

`Decimal` is a written number before it is rounded to any format, and `Decimal.toSingle` rounds it
twice, first to double and then to single precision, as a number does that passes through both.
`Decimal.shortest` goes the other way: of the decimals that read back as the given binary number
it takes one with the fewest digits, and of those the nearest.
-/
namespace SensorEvents

/-- The number `mantissa * 10 ^ exponent` with a sign, which zero has too. -/
structure Decimal where
  negative : Bool
  mantissa : Nat
  exponent : Int
  deriving DecidableEq, Repr

namespace Decimal

/-- The value of the digits `ds` after the digits of value `n`. -/
def digitsValue (n : Nat) (ds : List Char) : Nat :=
  ds.foldl (fun acc c => 10 * acc + (c.toNat - 48)) n

/-- The exponent part of a number: nothing, or a mark, a sign and at least one digit. -/
def readExponent? : List Char → Option Int
  | [] => some 0
  | mark :: rest =>
    if mark ≠ 'e' ∧ mark ≠ 'E' then none
    else
      let (negative, digits) := match rest with
        | '+' :: ds => (false, ds)
        | '-' :: ds => (true, ds)
        | ds => (false, ds)
      if digits.isEmpty ∨ ¬ digits.all Char.isDigit then none
      else
        let n := digitsValue 0 digits
        some (if negative then -(n : Int) else n)

/-- Read digits with an optional point among or around them and an optional exponent. -/
def readUnsigned? (negative : Bool) (cs : List Char) : Option Decimal := do
  let whole := cs.takeWhile Char.isDigit
  let afterWhole := cs.dropWhile Char.isDigit
  let (fraction, rest) := match afterWhole with
    | '.' :: tail => (tail.takeWhile Char.isDigit, tail.dropWhile Char.isDigit)
    | tail => ([], tail)
  if whole.isEmpty && fraction.isEmpty then none
  let exponent ← readExponent? rest
  return ⟨negative, digitsValue (digitsValue 0 whole) fraction, exponent - fraction.length⟩

def read? : List Char → Option Decimal
  | '+' :: cs => readUnsigned? false cs
  | '-' :: cs => readUnsigned? true cs
  | cs => readUnsigned? false cs

def digitCount (n : Nat) : Nat := (Nat.toDigits 10 n).length

/-- The magnitude as a ratio. Magnitudes beyond every format are brought to `10 ^ 400` and zero,
which round the same way. -/
def ratio (x : Decimal) : Nat × Nat :=
  let size : Int := digitCount x.mantissa + x.exponent
  if x.mantissa = 0 ∨ size < -400 then (0, 1)
  else if 400 < size then (Nat.pow 10 400, 1)
  else match x.exponent with
    | .ofNat e => (x.mantissa * Nat.pow 10 e, 1)
    | .negSucc e => (x.mantissa, Nat.pow 10 (e + 1))

def toDouble (x : Decimal) : Binary :=
  let (num, den) := x.ratio
  Binary.round .double num den

/-- Whether the number is finite in double precision. -/
def isFinite (x : Decimal) : Bool := !x.toDouble.exceedsDouble

/-- The number in single precision, reached through double precision. -/
def toSingle (x : Decimal) : Float32 :=
  let (num, den) := x.toDouble.ratio
  Binary.toSingle x.negative num den

/-- Compare `c * 10 ^ k` with `num / den`. -/
def compareAt (c : Nat) (k : Int) (num den : Nat) : Ordering :=
  match k with
  | .ofNat e => compare (c * Nat.pow 10 e * den) num
  | .negSucc e => compare (c * den) (num * Nat.pow 10 (e + 1))

/-- The whole part of `num / den / 10 ^ k`. -/
def wholeAt (k : Int) (num den : Nat) : Nat :=
  match k with
  | .ofNat e => num / (den * Nat.pow 10 e)
  | .negSucc e => num * Nat.pow 10 (e + 1) / den

/-- Which of two numbers is taken that are equally near. -/
inductive Tie where
  | upward
  | toEven
  deriving DecidableEq, Repr

/-- Whether a tie between `below` and its successor goes to `below`. -/
def Tie.favors (tie : Tie) (below : Nat) : Bool :=
  match tie with
  | .upward => false
  | .toEven => below % 2 = 0

/-- The multiple of `10 ^ k` between `low` and `high` that is nearest to `value`, if there is one.
All four are over the denominator `den`, and the bounds belong to the interval when `closed`. -/
def candidate? (tie : Tie) (closed : Bool) (low value high den : Nat) (k : Int) : Option Nat :=
  let below := wholeAt k value den
  let inside (c : Nat) : Bool :=
    let atLow := compareAt c k low den
    let atHigh := compareAt c k high den
    (atLow == .gt || (closed && atLow == .eq)) && (atHigh == .lt || (closed && atHigh == .eq))
  let middle := compareAt (2 * below + 1) k (2 * value) den
  let down := middle == .gt || (middle == .eq && tie.favors below)
  match inside below, inside (below + 1) with
  | true, true => some (if down then below else below + 1)
  | true, false => some below
  | false, true => some (below + 1)
  | false, false => none

/-- The powers of ten that the digits of a number can stand for, highest first. -/
def places (x : Binary) : List Int :=
  let top := 3 * (x.mantissa.log2 + x.exponent) / 10 + 2
  (List.range 30).map fun (i : Nat) => top - i

/-- The shortest decimal that rounds to the given magnitude. The numbers that round to it reach
half a unit to both sides, and half of that below a power of two. -/
def shortest (p : Precision) (tie : Tie) (x : Binary) : Nat × Int :=
  let narrow := x.mantissa = 1 <<< (p.bits - 1) ∧ p.least < x.exponent
  let (value, den) := (Binary.mk (4 * x.mantissa) (x.exponent - 2)).ratio
  let (unit, _) := (Binary.mk 1 (x.exponent - 2)).ratio
  let low := value - (if narrow then unit else 2 * unit)
  let high := value + 2 * unit
  let closed := x.mantissa % 2 = 0
  ((places x).findSome? fun k => (candidate? tie closed low value high den k).map fun c => (c, k)).getD
    (0, 0)

/-- Write `digits * 10 ^ k` without an exponent and without a point when none is needed. -/
def positional (digits : Nat) (k : Int) : String :=
  let text := Nat.toDigits 10 digits
  match k with
  | .ofNat e => String.ofList (text ++ List.replicate e '0')
  | .negSucc e =>
    let places := e + 1
    let padded := List.replicate (places + 1 - text.length) '0' ++ text
    let split := padded.length - places
    String.ofList (padded.take split ++ '.' :: padded.drop split)

end Decimal

namespace Single

/-- A single-precision number as text: the fewest digits that read back, never with an exponent. -/
def toText (x : Float32) : String :=
  if x.isNaN then "NaN"
  else
    let sign := if x.toBits ≥ 0x80000000 then "-" else ""
    sign ++ match Binary.ofSingle? x with
      | none => "inf"
      | some ⟨0, _⟩ => "0"
      | some b => let (digits, k) := Decimal.shortest .single .upward b; Decimal.positional digits k

end Single

end SensorEvents
