import SensorEvents.Text.Blank
import SensorEvents.Yaml.Character

/-!
# Scalars of a YAML stream

Plain, quoted and block scalars are read from where they start. Each function answers the text of
the scalar and the rest of the stream, and `none` when the scalar is malformed. Words of a plain or
quoted scalar are joined over line breaks by `Gap.fold`.
-/
namespace SensorEvents.Yaml

/-- The white space between two words: the blanks before the first break, and the breaks. -/
structure Gap where
  blanks : List Char := []
  breaks : List Char := []

namespace Gap

/-- What the white space becomes: a single line feed is a space, and more of them lose one. -/
def fold (g : Gap) : List Char :=
  match g.breaks with
  | [] => g.blanks
  | '\n' :: [] => [' ']
  | '\n' :: more => more
  | breaks => breaks

def isEmpty (g : Gap) : Bool := g.blanks.isEmpty && g.breaks.isEmpty

/-- Read white space. Once a line is broken, blanks are indentation, and a tab left of `indent` is
malformed. -/
def read? (indent : Nat) (broken : Bool) : Input → Option (Gap × Input)
  | [] => some ({}, [])
  | p :: ps =>
    if isBlank p.char then
      if broken && p.char = '\t' && p.column < indent then none
      else do
        let (g, rest) ← read? indent broken ps
        return (if broken then g else { g with blanks := p.char :: g.blanks }, rest)
    else if isBreak p.char then do
      let (g, rest) ← read? indent true ps
      return ({ g with breaks := p.char :: g.breaks }, rest)
    else
      some ({}, p :: ps)

end Gap

/-- A word of a plain scalar. Inside brackets or braces it ends at their indicators, and a colon
directly before one is malformed. -/
def plainWord? (flow : Bool) : Input → Option (List Char × Input)
  | [] => some ([], [])
  | p :: ps =>
    let beforeIndicator := match ps with
      | q :: _ => isFlowIndicator q.char || q.char = '?'
      | [] => false
    if isBlank p.char || isBreak p.char then some ([], p :: ps)
    else if flow && p.char = ':' && beforeIndicator then none
    else if p.char = ':' && Input.endsWordAt ps 0 then some ([], p :: ps)
    else if flow && isFlowIndicator p.char then some ([], p :: ps)
    else do
      let (word, rest) ← plainWord? flow ps
      return (p.char :: word, rest)

/-- A scalar, the rest of the stream, and whether the scalar ended after a line break. -/
abbrev PlainScalar := List Char × Input × Bool

/-- The words of a plain scalar that follow white space; outside of brackets and braces they are
indented. -/
def plainWords? (flow : Bool) (indent : Nat) : Nat → Gap → Input → Option PlainScalar
  | 0, _, _ => none
  | fuel + 1, gap, input => do
    let ended : PlainScalar := ([], input, !gap.breaks.isEmpty)
    if input.atAnyDocumentMark || input.isAt 0 '#' then
      return ended
    let (word, rest) ← plainWord? flow input
    if word.isEmpty then
      return ended
    let (next, rest) ← Gap.read? indent false rest
    let joined := gap.fold ++ word
    if next.isEmpty || (!flow && rest.column < indent) then
      return (joined, rest, !next.breaks.isEmpty)
    let (more, rest, broken) ← plainWords? flow indent fuel next rest
    return (joined ++ more, rest, broken)

def plainScalar? (flow : Bool) (indent : Nat) (input : Input) : Option PlainScalar :=
  plainWords? flow indent (input.length + 1) {} input

def simpleEscapes : List (Char × Nat) :=
  [('0', 0x00), ('a', 0x07), ('b', 0x08), ('t', 0x09), ('\t', 0x09), ('n', 0x0A), ('v', 0x0B),
    ('f', 0x0C), ('r', 0x0D), ('e', 0x1B), (' ', 0x20), ('\x22', 0x22), ('/', 0x2F), ('\\', 0x5C),
    ('N', 0x85), ('_', 0xA0), ('L', 0x2028), ('P', 0x2029)]

/-- How many hexadecimal digits follow the letter of an escape. -/
def hexEscapes : List (Char × Nat) := [('x', 2), ('u', 4), ('U', 8)]

/-- The character that stands for an escape after its backslash, and how many characters the
escape has. -/
def escape? (input : Input) : Option (Char × Nat) := do
  let p ← input.head?
  if let some n := simpleEscapes.lookup p.char then
    return (Char.ofNat n, 1)
  let digits ← hexEscapes.lookup p.char
  let body := (input.drop 1).take digits
  if body.length < digits then none
  let value ← Text.natural? 16 (body.map (·.char))
  if value.isValidChar then some (Char.ofNat value, digits + 1) else none

/-- A word of a quoted scalar: its text, whether an escaped line break ended it, and the rest. -/
def quotedWord? (quote : Char) : Nat → Input → Option (List Char × Bool × Input)
  | 0, _ => none
  | _ + 1, [] => some ([], false, [])
  | fuel + 1, p :: ps =>
    let literal (c : Char) (rest : Input) : Option (List Char × Bool × Input) := do
      let (word, escaped, rest) ← quotedWord? quote fuel rest
      return (c :: word, escaped, rest)
    if isBlank p.char || isBreak p.char then some ([], false, p :: ps)
    else if p.char = quote then
      if quote = '\x27' && Input.isAt ps 0 quote then literal quote (ps.drop 1)
      else some ([], false, p :: ps)
    else if quote = '\x22' && p.char = '\\' then
      match ps with
      | [] => none
      | q :: qs =>
        if isBreak q.char then some ([], true, qs)
        else do
          let (c, size) ← escape? ps
          literal c (ps.drop size)
    else literal p.char ps

/-- The words of a quoted scalar up to the closing quote. -/
def quotedWords? (quote : Char) : Nat → Input → Option (List Char × Input)
  | 0, _ => none
  | fuel + 1, input => do
    if input.isEmpty || input.atAnyDocumentMark then none
    let (word, escaped, rest) ← quotedWord? quote (input.length + 1) input
    if rest.isAt 0 quote then
      return (word, rest.drop 1)
    let (gap, rest) ← Gap.read? 0 escaped rest
    let (more, rest) ← quotedWords? quote fuel rest
    return (word ++ (if escaped then gap.breaks else gap.fold) ++ more, rest)

/-- A quoted scalar, from after its opening quote. -/
def quotedScalar? (quote : Char) (input : Input) : Option (List Char × Input) :=
  quotedWords? quote (input.length + 1) input

/-- What becomes of the line breaks at the end of a block scalar. -/
inductive Chomping where
  | strip
  | clip
  | keep
  deriving DecidableEq, Repr

/-- The indicators of a block scalar: its chomping and its indentation, zero when it shows from
the first line. -/
def blockHeader? (input : Input) : Option (Chomping × Nat × Input) := do
  let (first, rest) := chomping input
  let (size, rest) ← indentation rest
  let (chomp, rest) := match first with
    | some c => (c, rest)
    | none => let (c, rest) := chomping rest; (c.getD .clip, rest)
  let rest ← rest.endLine?
  return (chomp, size, rest)
where
  chomping (input : Input) : Option Chomping × Input :=
    if input.isAt 0 '+' then (some .keep, input.drop 1)
    else if input.isAt 0 '-' then (some .strip, input.drop 1)
    else (none, input)
  indentation : Input → Option (Nat × Input)
    | [] => some (0, [])
    | p :: ps =>
      if p.char = '0' then none
      else if p.char.isDigit then some (p.char.toNat - 48, ps)
      else some (0, p :: ps)

/-- The empty lines in front of a line of a block scalar: their breaks, the column of the deepest
one, and the rest. `indent` is zero as long as the indentation is open. -/
def blockBreaks? (indent deepest : Nat) : Input → Option (List Char × Nat × Input)
  | [] => some ([], deepest, [])
  | p :: ps =>
    let inside := indent = 0 || p.column < indent
    if inside && p.char = ' ' then blockBreaks? indent (max deepest (p.column + 1)) ps
    else if inside && p.char = '\t' then none
    else if isBreak p.char then do
      let (breaks, deepest, rest) ← blockBreaks? indent (max deepest p.column) ps
      return (p.char :: breaks, deepest, rest)
    else
      some ([], max deepest p.column, p :: ps)

/-- What is kept of the breaks after the last line. -/
def Chomping.ending (chomp : Chomping) (held empty : List Char) : List Char :=
  match chomp with
  | strip => []
  | clip => held
  | keep => held ++ empty

/-- The lines of a block scalar. `held` is the break after the line before, `empty` the breaks of
the empty lines since then, and `spaced` whether that line began with a blank. -/
def blockLines? (folded : Bool) (chomp : Chomping) (indent : Nat) :
    Nat → List Char → List Char → Bool → Input → Option (List Char × Input)
  | 0, _, _, _, _ => none
  | fuel + 1, held, empty, spaced, input =>
    match input with
    | [] => some (chomp.ending held empty, [])
    | p :: _ =>
      if p.column = indent then do
        let blank := isBlank p.char
        let lead :=
          if folded && held = ['\n'] && !spaced && !blank then
            if empty.isEmpty then [' '] else []
          else held
        let line := input.takeWhile fun q => !isBreak q.char
        let rest := input.dropWhile fun q => !isBreak q.char
        let (breaks, _, next) ← blockBreaks? indent 0 (rest.drop 1)
        let ending := Input.text (rest.take 1)
        let (more, rest) ← blockLines? folded chomp indent fuel ending breaks blank next
        return (lead ++ empty ++ Input.text line ++ more, rest)
      else
        some (chomp.ending held empty, input)

/-- A block scalar, from after its indicator, inside a collection indented by `parent`. -/
def blockScalar? (folded : Bool) (parent : Int) (input : Input) : Option (List Char × Input) := do
  let (chomp, size, rest) ← blockHeader? input
  let fixed := if size = 0 then 0 else (max parent 0).toNat + size
  let (breaks, deepest, rest) ← blockBreaks? fixed 0 rest
  let indent := if size = 0 then max deepest (max (parent + 1) 1).toNat else fixed
  blockLines? folded chomp indent (rest.length + 1) [] breaks false rest

end SensorEvents.Yaml
