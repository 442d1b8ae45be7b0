import SensorEvents.Document.Node

/-!
# Writing JSON

A string stands between quotation marks. Quotation marks, backslashes and control characters are
escaped, those with a short form by it; every other character stands for itself. Reports write
strings only. A whole document, whose scalars have their types, becomes a text without white space
for the tools around the program. Real numbers have the fewest digits that read back in double
precision, and always a point or an exponent, so that they stay apart from integers.
-/
namespace SensorEvents.Json

def hex4 (n : Nat) : String :=
  let digits := Nat.toDigits 16 n
  String.ofList (List.replicate (4 - digits.length) '0' ++ digits)

def escape (c : Char) : String :=
  match c.toNat with
  | 0x22 => "\\\""
  | 0x5C => "\\\\"
  | 0x08 => "\\b"
  | 0x09 => "\\t"
  | 0x0A => "\\n"
  | 0x0C => "\\f"
  | 0x0D => "\\r"
  | n => if n < 0x20 then "\\u" ++ hex4 n else c.toString

def quote (s : String) : String :=
  "\"" ++ String.join (s.toList.map escape) ++ "\""

/-- Digits with a point after the first one, and how far the point is from its place. -/
def scientific (digits : List Char) (exponent : Int) : String :=
  let mantissa := match digits with
    | first :: second :: rest => first :: '.' :: second :: rest
    | digits => digits
  let sign := if exponent < 0 then "-" else "+"
  String.ofList mantissa ++ "e" ++ sign ++ toString exponent.natAbs

/-- The number `digits * 10 ^ k`. It has an exponent when more than sixteen digits are in front of
the point, or five zeros behind it. -/
def positive (digits : Nat) (k : Int) : String :=
  let text := Nat.toDigits 10 digits
  let whole : Int := text.length + k
  if whole ≤ -5 ∨ 16 < whole then scientific text (whole - 1)
  else if 0 ≤ k then Decimal.positional digits k ++ ".0"
  else Decimal.positional digits k

def real (x : Decimal) : String :=
  let sign := if x.negative then "-" else ""
  sign ++ match x.toDouble with
    | ⟨0, _⟩ => "0.0"
    | b => let (digits, k) := Decimal.shortest .double .toEven b; positive digits k

/-- A scalar. What is not a finite number is null. -/
def scalar : Scalar → String
  | .null => "null"
  | .bool b => if b then "true" else "false"
  | .natural n => toString n
  | .negated n => "-" ++ toString n
  | .real x => real x
  | .infinity _ | .notANumber => "null"
  | .text s => quote s

mutual

def write : Node → String
  | .typed s => scalar s
  | .written s => quote s.text
  | .list items _ => "[" ++ ",".intercalate (writeItems items) ++ "]"
  | .fields entries _ => "\x7b" ++ ",".intercalate (writeEntries entries) ++ "\x7d"
  | .alias _ => "null"

def writeItems : List Node → List String
  | [] => []
  | item :: items => write item :: writeItems items

def writeEntries : List (Node × Node) → List String
  | [] => []
  | (key, value) :: entries => (write key ++ ":" ++ write value) :: writeEntries entries

end

end SensorEvents.Json
