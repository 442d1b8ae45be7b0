import SensorEvents.Document.Node
import SensorEvents.Text.Blank

/-!
# JSON documents

A JSON text is read to a document whose scalars are typed. A number without fraction and exponent
is an integer if 64 bits hold it; every other number is real, minus zero as well. Configuration files
are YAML; this reader is for the tools around the program, which give settings as JSON.
-/
namespace SensorEvents.Json

def skipSpace (cs : List Char) : List Char :=
  cs.dropWhile fun c => c = ' ' || c = '\n' || c = '\r' || c = '\t'

def unit? : List Char → Option (Nat × List Char)
  | a :: b :: c :: d :: rest => (Text.natural? 16 [a, b, c, d]).map (·, rest)
  | _ => none

/-- The character of an escape with its code, where two halves may stand for one character. -/
def unicode? (cs : List Char) : Option (Char × List Char) := do
  let (high, rest) ← unit? cs
  if 0xD800 ≤ high ∧ high < 0xDC00 then
    match rest with
    | '\\' :: 'u' :: rest =>
      let (low, rest) ← unit? rest
      if 0xDC00 ≤ low ∧ low < 0xE000 then
        return (Char.ofNat (0x10000 + (high - 0xD800) * 0x400 + (low - 0xDC00)), rest)
      else none
    | _ => none
  else if high.isValidChar then some (Char.ofNat high, rest)
  else none

/-- The characters of the escapes that are one letter. -/
def letters : List (Char × Nat) :=
  [('\x22', 0x22), ('\\', 0x5C), ('/', 0x2F), ('b', 0x08), ('f', 0x0C), ('n', 0x0A), ('r', 0x0D),
    ('t', 0x09)]

/-- The rest of a string, after its opening quotation mark. -/
def string? : Nat → List Char → List Char → Option (String × List Char)
  | 0, _, _ => none
  | fuel + 1, seen, cs =>
    match cs with
    | [] => none
    | '\x22' :: rest => some (String.ofList seen.reverse, rest)
    | '\\' :: 'u' :: rest => do
      let (c, rest) ← unicode? rest
      string? fuel (c :: seen) rest
    | '\\' :: letter :: rest => do
      let code ← letters.lookup letter
      string? fuel (Char.ofNat code :: seen) rest
    | c :: rest => if c.toNat < 0x20 then none else string? fuel (c :: seen) rest

def isNumberChar (c : Char) : Bool := c.isDigit || c ∈ ['+', '-', '.', 'e', 'E']

def number? (cs : List Char) : Option (Scalar × List Char) := do
  let lexeme := cs.takeWhile isNumberChar
  let rest := cs.dropWhile isNumberChar
  let x ← Decimal.read? lexeme
  let whole := lexeme.all fun c => c.isDigit || c = '-'
  if whole && !x.negative && x.mantissa < 1 <<< 64 then return (.natural x.mantissa, rest)
  else if whole && x.negative && 0 < x.mantissa && x.mantissa ≤ 1 <<< 63 then
    return (.negated x.mantissa, rest)
  else return (.real x, rest)

mutual

def value? : Nat → List Char → Option (Node × List Char)
  | 0, _ => none
  | fuel + 1, cs =>
    match skipSpace cs with
    | '\x7b' :: rest =>
      match skipSpace rest with
      | '\x7d' :: rest => some (.fields [] false, rest)
      | rest => do
        let (entries, rest) ← entries? fuel rest
        return (.fields entries false, rest)
    | '[' :: rest =>
      match skipSpace rest with
      | ']' :: rest => some (.list [] false, rest)
      | rest => do
        let (items, rest) ← items? fuel rest
        return (.list items false, rest)
    | '\x22' :: rest => do
      let (s, rest) ← string? (rest.length + 1) [] rest
      return (.typed (.text s), rest)
    | 't' :: 'r' :: 'u' :: 'e' :: rest => some (.typed (.bool true), rest)
    | 'f' :: 'a' :: 'l' :: 's' :: 'e' :: rest => some (.typed (.bool false), rest)
    | 'n' :: 'u' :: 'l' :: 'l' :: rest => some (.typed .null, rest)
    | cs => do
      let (x, rest) ← number? cs
      return (.typed x, rest)

/-- The items of an array, up to its bracket. -/
def items? : Nat → List Char → Option (List Node × List Char)
  | 0, _ => none
  | fuel + 1, cs => do
    let (item, rest) ← value? fuel cs
    match skipSpace rest with
    | ',' :: rest =>
      let (items, rest) ← items? fuel rest
      return (item :: items, rest)
    | ']' :: rest => return ([item], rest)
    | _ => none

/-- The entries of an object, up to its brace. -/
def entries? : Nat → List Char → Option (List (Node × Node) × List Char)
  | 0, _ => none
  | fuel + 1, cs =>
    match skipSpace cs with
    | '\x22' :: rest => do
      let (key, rest) ← string? (rest.length + 1) [] rest
      match skipSpace rest with
      | ':' :: rest =>
        let (value, rest) ← value? fuel rest
        let entry := (Node.typed (.text key), value)
        match skipSpace rest with
        | ',' :: rest =>
          let (entries, rest) ← entries? fuel rest
          return (entry :: entries, rest)
        | '\x7d' :: rest => return ([entry], rest)
        | _ => none
      | _ => none
    | _ => none

end

def read? (text : String) : Option Node := do
  let cs := text.toList
  let (node, rest) ← value? (2 * cs.length + 2) cs
  if (skipSpace rest).isEmpty then some node else none

end SensorEvents.Json
