import SensorEvents.Yaml.Scalar

/-!
# Tags of a YAML stream

A tag is written as an address between angle brackets, or as a handle and the rest of an address.
Bytes of an address can be escaped, all bytes of a character together. An escaped byte of zero
hides what follows it in the address.
-/
namespace SensorEvents.Yaml

/-- The bytes of an address or of a part of one. -/
abbrev Address := List UInt8

namespace Address

/-- The bytes in front of the first zero. -/
def visible (a : Address) : Address := a.takeWhile (· ≠ 0)

/-- A byte written as a percent sign and two hexadecimal digits. -/
def escapedByte? : Input → Option (Nat × Input)
  | percent :: high :: low :: rest => do
    if percent.char ≠ '%' then none
    return (← Text.natural? 16 [high.char, low.char], rest)
  | _ => none

/-- How many bytes follow the first byte of a character. -/
def following? (first : Nat) : Option Nat :=
  if first < 0x80 then some 0
  else if first < 0xC0 then none
  else if first < 0xE0 then some 1
  else if first < 0xF0 then some 2
  else if first < 0xF8 then some 3
  else none

def continued? : Nat → Input → Option (Address × Input)
  | 0, input => some ([], input)
  | count + 1, input => do
    let (byte, rest) ← escapedByte? input
    if byte / 0x40 ≠ 2 then none
    let (more, rest) ← continued? count rest
    return (byte.toUInt8 :: more, rest)

def escaped? (input : Input) : Option (Address × Input) := do
  let (first, rest) ← escapedByte? input
  let (more, rest) ← continued? (← following? first) rest
  return (first.toUInt8 :: more, rest)

/-- The characters of an address that stand for themselves; brackets and commas only between angle
brackets. -/
def isPlain (bracketed : Bool) (c : Char) : Bool :=
  isWordChar c || c ∈ ";/?:@&=+$.!~*\x27()".toList || (bracketed && c ∈ [',', '[', ']'])

/-- Read an address up to a character that cannot be in it. -/
def readFrom? (bracketed : Bool) : Nat → Input → Option (Address × Input)
  | 0, _ => none
  | fuel + 1, input =>
    match input with
    | [] => some ([], [])
    | p :: ps =>
      if isPlain bracketed p.char then do
        let (more, rest) ← readFrom? bracketed fuel ps
        return (p.char.toUInt8 :: more, rest)
      else if p.char = '%' then do
        let (bytes, rest) ← escaped? input
        let (more, rest) ← readFrom? bracketed fuel rest
        return (bytes ++ more, rest)
      else
        some ([], input)

def read? (bracketed : Bool) (input : Input) : Option (Address × Input) :=
  readFrom? bracketed (input.length + 1) input

end Address

/-- A tag as it is written: a whole address, or a handle with the rest of the address. -/
inductive WrittenTag where
  | whole (address : Address)
  | under (handle : String) (rest : Address)
  deriving DecidableEq, Repr

/-- A tag's handle: an exclamation mark, word characters and perhaps another mark. -/
def tagHandle (input : Input) : List Char × Input :=
  let start := '!' :: (input.after 1).word
  let rest := (input.after 1).afterWord
  if rest.isAt 0 '!' then (start ++ ['!'], rest.after 1) else (start, rest)

namespace WrittenTag

/-- Read a tag, from its exclamation mark. A mark with nothing after it is a whole address. -/
def read? (input : Input) : Option (WrittenTag × Input) := do
  if input.isAt 1 '<' then
    let (address, rest) ← Address.read? true (input.drop 2)
    if address.isEmpty || !rest.isAt 0 '>' then none
    return (whole address.visible, rest.drop 1)
  else
    let (handle, rest) := tagHandle input
    let (suffix, rest) ← Address.read? false rest
    if handle.length > 1 && handle.getLast? = some '!' then
      if suffix.isEmpty then none
      return (under (String.ofList handle) suffix.visible, rest)
    else
      let word : Address := handle.tail.map Char.toUInt8 ++ suffix.visible
      if word.isEmpty then return (whole ['!'.toUInt8], rest)
      return (under "!" word, rest)

end WrittenTag

end SensorEvents.Yaml
