import SensorEvents.Document.Node
import SensorEvents.Yaml.Scalar
import SensorEvents.Yaml.Tag

/-!
# Tokens of a YAML stream

The stream is cut into tokens from left to right. Indentation becomes tokens that open and close
block collections. Whether something is a key shows only at the colon after it, so a position that
may hold a key is remembered, and the key token is put there when the colon comes. A key that is
not asked for by its position is limited to one line and 1024 bytes.
-/
namespace SensorEvents.Yaml

/-- A piece of a stream with its own meaning. -/
inductive Token where
  | version (major minor : Nat)
  | tagHandle (handle : String) (address : Address)
  | documentStart
  | documentEnd
  | blockSequenceStart
  | blockMappingStart
  | blockEnd
  | flowSequenceStart
  | flowSequenceEnd
  | flowMappingStart
  | flowMappingEnd
  | blockEntry
  | flowEntry
  | key
  | value
  | alias (name : String)
  | anchor (name : String)
  | tag (written : WrittenTag)
  | scalar (text : String) (style : ScalarStyle)
  deriving DecidableEq, Repr

/-- A place where a key may begin: the number of its token, whether its position asks for a key,
and where it stands. -/
structure KeyPlace where
  token : Nat
  required : Bool
  place : Placed

/-- The tokens so far and what is needed for the next one. -/
structure Lexer where
  rest : Input
  tokens : Array Token := #[]
  /-- The column of the innermost block collection. -/
  indent : Int := -1
  /-- The columns of the collections around it. -/
  outer : List Int := []
  /-- The place of a possible key, at this level of brackets and at the levels around it. -/
  keyPlace : Option KeyPlace := none
  outerKeys : List (Option KeyPlace) := []
  /-- Whether a key may begin here. -/
  keyAllowed : Bool := true

namespace Lexer

def keyLimit : Nat := 1024

/-- Whether the lexer is inside brackets or braces. -/
def inFlow (l : Lexer) : Bool := !l.outerKeys.isEmpty

def push (l : Lexer) (token : Token) : Lexer := { l with tokens := l.tokens.push token }

def skip (l : Lexer) (count : Nat) : Lexer := { l with rest := l.rest.drop count }

/-- Leave out blanks, comments, line breaks, and a byte order mark at the start of a line. A mark
takes up column 0 all the same, so what follows it begins in column 1. Outside of brackets a new
line may begin a key, and where a key may begin a tab is no indentation. -/
def skipSpace (flow : Bool) : Bool → Bool → Input → Bool × Input
  | allowed, _, [] => (allowed, [])
  | allowed, comment, p :: ps =>
    if isBreak p.char then skipSpace flow (allowed || !flow) false ps
    else if comment || p.char = '#' then skipSpace flow allowed true ps
    else if p.char = ' ' || (p.char = '\t' && (flow || !allowed)) ||
        (p.char = byteOrderMark && p.column = 0) then skipSpace flow allowed false ps
    else (allowed, p :: ps)

def toNextToken (l : Lexer) : Lexer :=
  let (keyAllowed, rest) := skipSpace l.inFlow l.keyAllowed false l.rest
  { l with keyAllowed, rest }

/-- Whether a key that begins at a place can no longer be one at `here`. -/
def isStale (here : Placed) (k : KeyPlace) : Bool :=
  k.place.line < here.line || k.place.index + keyLimit < here.index

/-- Give up places that are stale; a place that asks for a key cannot be given up. -/
def dropStale? (l : Lexer) : Option Lexer :=
  match l.rest with
  | [] => some l
  | here :: _ =>
    let check : Option KeyPlace → Option (Option KeyPlace)
      | none => some none
      | some k => if isStale here k then (if k.required then none else some none) else some (some k)
    do
      let keyPlace ← check l.keyPlace
      let outerKeys ← l.outerKeys.mapM check
      return { l with keyPlace, outerKeys }

def dropKey? (l : Lexer) : Option Lexer :=
  match l.keyPlace with
  | some k => if k.required then none else some { l with keyPlace := none }
  | none => some l

def saveKey? (l : Lexer) : Option Lexer :=
  match l.rest with
  | here :: _ =>
    if l.keyAllowed then do
      let l ← l.dropKey?
      let required := !l.inFlow && l.indent = here.column
      return { l with keyPlace := some { token := l.tokens.size, required, place := here } }
    else
      some l
  | [] => some l

/-- Open a block collection at a column, unless one is open there. The token that opens it becomes
token number `at`. -/
def roll (l : Lexer) (column : Nat) (position : Nat) (token : Token) : Lexer :=
  if !l.inFlow && l.indent < column then
    { l with
      outer := l.indent :: l.outer
      indent := column
      tokens := l.tokens.insertIdxIfInBounds position token }
  else
    l

/-- Close the block collections that are indented further than `column`. -/
def unrollTo (column : Int) (indent : Int) (tokens : Array Token) :
    List Int → Int × List Int × Array Token
  | [] => (indent, [], tokens)
  | parent :: outer =>
    if indent > column then unrollTo column parent (tokens.push .blockEnd) outer
    else (indent, parent :: outer, tokens)

def unroll (l : Lexer) (column : Int) : Lexer :=
  if l.inFlow then l
  else
    let (indent, outer, tokens) := unrollTo column l.indent l.tokens l.outer
    { l with indent, outer, tokens }

/-- A mark between documents, of `size` characters. -/
def documentMark? (l : Lexer) (token : Token) (size : Nat) : Option Lexer := do
  let l ← (l.unroll (-1)).dropKey?
  return ({ l with keyAllowed := false }.skip size).push token

def openFlow? (l : Lexer) (token : Token) : Option Lexer := do
  let l ← l.saveKey?
  let l := { l with outerKeys := l.keyPlace :: l.outerKeys, keyPlace := none, keyAllowed := true }
  return (l.skip 1).push token

def closeFlow? (l : Lexer) (token : Token) : Option Lexer := do
  let l ← l.dropKey?
  let l := match l.outerKeys with
    | keyPlace :: outerKeys => { l with keyPlace, outerKeys }
    | [] => l
  return ({ l with keyAllowed := false }.skip 1).push token

/-- A comma between the entries of a flow collection. -/
def flowEntry? (l : Lexer) : Option Lexer := do
  let l ← l.dropKey?
  return ({ l with keyAllowed := true }.skip 1).push .flowEntry

/-- Open a block collection for an indicator that stands here; only where a key may begin. -/
def openBlock? (l : Lexer) (token : Token) : Option Lexer :=
  if l.inFlow then some l
  else if l.keyAllowed then some (l.roll l.rest.column l.tokens.size token)
  else none

def blockEntry? (l : Lexer) : Option Lexer := do
  let l ← l.openBlock? .blockSequenceStart
  let l ← l.dropKey?
  return ({ l with keyAllowed := true }.skip 1).push .blockEntry

/-- A question mark in front of a key. -/
def explicitKey? (l : Lexer) : Option Lexer := do
  let l ← l.openBlock? .blockMappingStart
  let l ← l.dropKey?
  return ({ l with keyAllowed := !l.inFlow }.skip 1).push .key

def value? (l : Lexer) : Option Lexer :=
  match l.keyPlace with
  | some k =>
    let l := { l with tokens := l.tokens.insertIdxIfInBounds k.token .key }
    let l := l.roll k.place.column k.token .blockMappingStart
    some (({ l with keyPlace := none, keyAllowed := false }.skip 1).push .value)
  | none => do
    let l ← l.openBlock? .blockMappingStart
    return ({ l with keyAllowed := !l.inFlow }.skip 1).push .value

def flowScalar? (l : Lexer) (quote : Char) : Option Lexer := do
  let l ← l.saveKey?
  let (text, rest) ← quotedScalar? quote (l.rest.drop 1)
  return { l with keyAllowed := false, rest }.push (.scalar (String.ofList text) .quoted)

def plainScalar? (l : Lexer) : Option Lexer := do
  let l ← l.saveKey?
  let (text, rest, broken) ← Yaml.plainScalar? l.inFlow (l.indent + 1).toNat l.rest
  return { l with keyAllowed := broken, rest }.push (.scalar (String.ofList text) .plain)

def blockScalar? (l : Lexer) (folded : Bool) : Option Lexer := do
  let l ← l.dropKey?
  let (text, rest) ← Yaml.blockScalar? folded l.indent (l.rest.drop 1)
  return { l with keyAllowed := true, rest }.push (.scalar (String.ofList text) (if folded then .folded else .literal))

/-- The name after the mark of an anchor or an alias, up to something that ends it. -/
def name? (input : Input) : Option (String × Input) :=
  let word := input.word
  let rest := input.afterWord
  let ended := rest.endsWordAt 0 || ['?', ':', ',', ']', '\x7d', '%', '@', '\x60'].any (rest.isAt 0)
  if word.isEmpty || !ended then none else some (String.ofList word, rest)

def anchor? (l : Lexer) (token : String → Token) : Option Lexer := do
  let l ← l.saveKey?
  let (name, rest) ← name? (l.rest.drop 1)
  return { l with keyAllowed := false, rest }.push (token name)

def tag? (l : Lexer) : Option Lexer := do
  let l ← l.saveKey?
  let (written, rest) ← WrittenTag.read? l.rest
  if !(rest.endsWordAt 0 || (l.inFlow && rest.isAt 0 ',')) then none
  return { l with keyAllowed := false, rest }.push (.tag written)

def versionNumber? (input : Input) : Option (Nat × Input) :=
  let digits := input.takeWhile fun p => p.char.isDigit
  if digits.isEmpty || digits.length > 9 then none
  else
    let n := digits.foldl (fun n p => 10 * n + (p.char.toNat - 48)) 0
    some (n, input.dropWhile fun p => p.char.isDigit)

/-- What a directive says, from after its percent sign to the end of its line. -/
def directive? (input : Input) : Option (Token × Input) := do
  let name := input.word
  let rest := input.afterWord
  if !rest.endsWordAt 0 then none
  let rest := rest.skipBlanks
  if name = "YAML".toList then
    let (major, rest) ← versionNumber? rest
    if !rest.isAt 0 '.' then none
    let (minor, rest) ← versionNumber? (rest.drop 1)
    return (.version major minor, ← rest.endLine?)
  else if name = "TAG".toList then
    if !rest.isAt 0 '!' then none
    let (handle, rest) := tagHandle rest
    if handle ≠ ['!'] && handle.getLast? ≠ some '!' then none
    if !(rest.head?.any fun p => isBlank p.char) then none
    let rest := rest.skipBlanks
    let (address, rest) ← Address.read? true rest
    if address.isEmpty || !rest.endsWordAt 0 then none
    return (.tagHandle (String.ofList handle) address.visible, ← rest.endLine?)
  else
    none

def readDirective? (l : Lexer) : Option Lexer := do
  let l ← (l.unroll (-1)).dropKey?
  let (token, rest) ← directive? (l.rest.drop 1)
  return { l with keyAllowed := false, rest }.push token

def beginsPlain (l : Lexer) (c : Char) : Bool :=
  let next := l.rest.after 1
  if c = '-' then !(next.head?.any fun p => isBlank p.char)
  else if c = '?' || c = ':' then !l.inFlow && !next.endsWordAt 0
  else !isBlank c && c ∉ ",[]\x7b\x7d#&*!|>\x27\x22%@\x60".toList

/-- The next token, which begins with `c`. -/
def readToken? (l : Lexer) (c : Char) : Option Lexer :=
  let spaced := l.rest.endsWordAt 1
  if l.rest.column = 0 && c = '%' then l.readDirective?
  else if l.rest.atDocumentMark '-' then l.documentMark? .documentStart 3
  else if l.rest.atDocumentMark '.' then l.documentMark? .documentEnd 3
  else if c = '[' then l.openFlow? .flowSequenceStart
  else if c = '\x7b' then l.openFlow? .flowMappingStart
  else if c = ']' then l.closeFlow? .flowSequenceEnd
  else if c = '\x7d' then l.closeFlow? .flowMappingEnd
  else if c = ',' then l.flowEntry?
  else if c = '-' && spaced then l.blockEntry?
  else if c = '?' && (l.inFlow || spaced) then l.explicitKey?
  else if c = ':' && (l.inFlow || spaced) then l.value?
  else if c = '*' then l.anchor? .alias
  else if c = '&' then l.anchor? .anchor
  else if c = '!' then l.tag?
  else if c = '|' && !l.inFlow then l.blockScalar? false
  else if c = '>' && !l.inFlow then l.blockScalar? true
  else if c = '\x27' || c = '\x22' then l.flowScalar? c
  else if l.beginsPlain c then l.plainScalar?
  else none

/-- Read tokens to the end of the stream. Each takes at least one character. -/
def run? : Nat → Lexer → Option (Array Token)
  | 0, _ => none
  | fuel + 1, l => do
    let l ← l.toNextToken.dropStale?
    match l.rest with
    | [] => return (← (l.unroll (-1)).dropKey?).tokens
    | here :: _ => run? fuel (← (l.unroll here.column).readToken? here.char)

end Lexer

def tokens? (text : String) : Option (List Token) := do
  let input ← Input.ofText? text
  let tokens ← Lexer.run? (input.length + 1) { rest := input }
  return tokens.toList

end SensorEvents.Yaml
