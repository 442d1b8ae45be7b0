import SensorEvents.Document.Node
import SensorEvents.Text.Blank

/-!
# Scalars of the core schema

How a scalar without quotes is understood: the spellings of null and of the truth values, integers
in four bases, and decimal numbers. A number of several digits with a leading zero is text.
-/
namespace SensorEvents.Text

def isNull (s : String) : Bool := s ∈ ["~", "null", "Null", "NULL"]

def bool? (s : String) : Option Bool :=
  if s ∈ ["true", "True", "TRUE"] then some true
  else if s ∈ ["false", "False", "FALSE"] then some false
  else none

/-- Whether a number is written with a leading zero. -/
def hasLeadingZero (cs : List Char) : Bool :=
  let unsigned := match cs with
    | '-' :: ds => ds
    | '+' :: ds => ds
    | ds => ds
  match unsigned with
  | '0' :: d :: ds => (d :: ds).all Char.isDigit
  | _ => false

/-- The digits of a magnitude and their base. -/
def based? : List Char → Option Nat
  | '0' :: 'x' :: ds => natural? 16 ds
  | '0' :: 'o' :: ds => natural? 8 ds
  | '0' :: 'b' :: ds => natural? 2 ds
  | cs => if hasLeadingZero cs then none else natural? 10 cs

def unsignedInteger? (cs : List Char) : Option Nat :=
  match cs with
  | '+' :: ds => based? ds
  | ds => based? ds

/-- A number that need not be whole. What is too large for double precision is no number. -/
def real? (s : String) : Option Scalar :=
  if s ∈ [".inf", ".Inf", ".INF", "+.inf", "+.Inf", "+.INF"] then some (.infinity false)
  else if s ∈ ["-.inf", "-.Inf", "-.INF"] then some (.infinity true)
  else if s ∈ [".nan", ".NaN", ".NAN"] then some .notANumber
  else
    let unsigned := match s.toList with
      | '+' :: '+' :: _ => []
      | '+' :: '-' :: _ => []
      | '+' :: cs => cs
      | cs => cs
    (Decimal.read? unsigned).bind fun x => if x.isFinite then some (.real x) else none

/-- The magnitude of an integer with a minus sign. -/
def negatedInteger? : List Char → Option Nat
  | '-' :: ds => based? ds
  | _ => none

/-- A number that is no integer, or a text. -/
def realOrText (s : String) : Scalar :=
  if hasLeadingZero s.toList then .text s else (real? s).getD (.text s)

/-- What a scalar without quotes is. Integers have 64 bits; those that need up to 128 are nothing at
all, and larger ones are real. -/
def plain? (s : String) : Option Scalar :=
  if s.isEmpty || isNull s then some .null
  else if let some b := bool? s then some (.bool b)
  else if let some n := unsignedInteger? s.toList then
    if n < 1 <<< 64 then some (.natural n) else if n < 1 <<< 128 then none else some (realOrText s)
  else if let some n := negatedInteger? s.toList then
    if n ≤ 1 <<< 63 then some (.negated n) else if n ≤ 1 <<< 127 then none else some (realOrText s)
  else some (realOrText s)

end SensorEvents.Text
