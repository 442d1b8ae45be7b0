/-!
# Characters of a YAML stream

The text of a stream as characters with their places. Line breaks that stand for a line feed are
one character here, so later stages see a single kind of them; the two Unicode separators stay
what they are.
-/
namespace SensorEvents.Yaml

/-- A character, the line and the column where it stands, and how many bytes of the stream are
before it. -/
structure Placed where
  char : Char
  line : Nat
  column : Nat
  index : Nat

abbrev Input := List Placed

def isBlank (c : Char) : Bool := c = ' ' || c = '\t'

/-- A line break, once line feeds are normalized. -/
def isBreak (c : Char) : Bool := c = '\n' || c = '\u2028' || c = '\u2029'

def byteOrderMark : Char := '\ufeff'

def isPrintable (c : Char) : Bool :=
  let n := c.toNat
  n = 0x09 || n = 0x0A || n = 0x0D || (0x20 ≤ n && n ≤ 0x7E) || n = 0x85 ||
    (0xA0 ≤ n && n ≤ 0xFFFD) || 0x10000 ≤ n

def isWordChar (c : Char) : Bool := c.isAlphanum || c = '_' || c = '-'

/-- The characters that end a plain scalar inside brackets or braces. -/
def isFlowIndicator (c : Char) : Bool := c ∈ [',', '[', ']', '\x7b', '\x7d']

/-- One line feed for each way of writing it. -/
def normalizeBreaks : List Char → List Char
  | [] => []
  | '\r' :: '\n' :: cs => '\n' :: normalizeBreaks cs
  | '\r' :: cs => '\n' :: normalizeBreaks cs
  | '\u0085' :: cs => '\n' :: normalizeBreaks cs
  | c :: cs => c :: normalizeBreaks cs

def place (line column index : Nat) : List Char → Input
  | [] => []
  | c :: cs =>
    let next := index + c.utf8Size
    ⟨c, line, column, index⟩ ::
      if isBreak c then place (line + 1) 0 next cs else place line (column + 1) next cs

/-- The characters of a stream; `none` when there is one that a stream may not have. -/
def Input.ofText? (text : String) : Option Input :=
  let cs := text.toList
  if cs.all isPrintable then some (place 0 0 0 (normalizeBreaks cs)) else none

namespace Input

/-- Whether the `n`th character is a blank, a break or the end. -/
def endsWordAt (input : Input) (n : Nat) : Bool :=
  match input[n]? with
  | some p => isBlank p.char || isBreak p.char
  | none => true

/-- Whether a character is `c`. -/
def isAt (input : Input) (n : Nat) (c : Char) : Bool := (input[n]?.map Placed.char) = some c

def column (input : Input) : Nat := (input.head?.map Placed.column).getD 0

/-- Whether a document starts or ends here: three dashes or dots at the beginning of a line. -/
def atDocumentMark (input : Input) (c : Char) : Bool :=
  input.column = 0 && input.isAt 0 c && input.isAt 1 c && input.isAt 2 c && input.endsWordAt 3

def atAnyDocumentMark (input : Input) : Bool := input.atDocumentMark '-' || input.atDocumentMark '.'

def text (input : Input) : List Char := input.map Placed.char

def after (input : Input) (count : Nat) : Input := input.drop count

def word (input : Input) : List Char := (input.takeWhile fun p => isWordChar p.char).map Placed.char

/-- The input after the word characters that come next. -/
def afterWord (input : Input) : Input := input.dropWhile fun p => isWordChar p.char

def skipBlanks (input : Input) : Input := input.dropWhile fun p => isBlank p.char

/-- Leave out blanks and a comment, and then the line break; `none` when something else is left on
the line. -/
def endLine? (input : Input) : Option Input :=
  let rest := input.skipBlanks
  let rest := if rest.isAt 0 '#' then rest.dropWhile fun p => !isBreak p.char else rest
  match rest with
  | [] => some []
  | p :: ps => if isBreak p.char then some ps else none

end Input

end SensorEvents.Yaml
