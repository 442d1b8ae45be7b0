import SensorEvents.Text.Number

/-!
# Types of scalars

`WrittenScalar.resolve?` gives a written scalar its type, without regard to the setting it is given
for. The readers `nat?`, `single?` and so on ask a node for one type: a typed scalar has to have
it, and a written one has to be spelled like it.
-/
namespace SensorEvents

namespace WrittenScalar

/-- Whether the text may be read as a core type: it has no quotes, or it is a literal block under
the tag of that type. -/
def mayBe (s : WrittenScalar) (type : String) : Bool :=
  match s.style with
  | .plain => true
  | .literal => s.tag = some (.core type)
  | .quoted | .folded => false

/-- The type of a scalar that shows in its spelling alone. -/
def bySpelling? (s : WrittenScalar) : Option Scalar :=
  if s.style = .plain then Text.plain? s.text else some (.text s.text)

/-- The type of a scalar by its tag and its spelling; a type of the document's own is not known,
and any other tag makes a text. -/
def resolve? (s : WrittenScalar) : Option Scalar :=
  match s.tag with
  | none => s.bySpelling?
  | some tag =>
    if tag.namesType then none
    else if tag.isLocal then s.bySpelling?
    else if tag = .core "bool" then (Text.bool? s.text).map .bool
    else if tag = .core "int" then
      match Text.plain? s.text with
      | some (.natural n) => some (.natural n)
      | some (.negated n) => some (.negated n)
      | _ => none
    else if tag = .core "float" then Text.real? s.text
    else if tag = .core "null" then if Text.isNull s.text then some .null else none
    else some (.text s.text)

def isEmpty (s : WrittenScalar) : Bool := s.text.isEmpty && s.style = .plain

/-- Whether null is written, or nothing; `none` when a tag asks for null and something else is
written. -/
def isNull? (s : WrittenScalar) : Option Bool :=
  if s.style ≠ .plain then some false
  else match s.tag with
    | none => some (s.text.isEmpty || Text.isNull s.text)
    | some tag =>
      if tag = .core "null" then if Text.isNull s.text then some true else none
      else some false

end WrittenScalar

namespace Node

/-- A natural number of at most `limit`. -/
def nat? (limit : Nat) : Node → Option Nat
  | typed (.natural n) => if n ≤ limit then some n else none
  | typed (.negated n) => if n = 0 then some 0 else none
  | written s =>
    if s.mayBe "int" then
      (Text.unsignedInteger? s.text.toList).filter (· ≤ limit)
    else none
  | _ => none

def bool? : Node → Option Bool
  | typed (.bool b) => some b
  | written s => if s.mayBe "bool" then Text.bool? s.text else none
  | _ => none

end Node

namespace Scalar

/-- The scalar as a number in single precision. An integer is rounded once, a real number comes
through double precision. -/
def single? : Scalar → Option Float32
  | natural n => some (Binary.toSingle false n 1)
  | negated n => some (Binary.toSingle (n ≠ 0) n 1)
  | real x => some x.toSingle
  | infinity negative => some (Float32.ofBits (if negative then 0xFF800000 else 0x7F800000))
  | notANumber => some (Float32.ofBits 0x7FC00000)
  | _ => none

end Scalar

namespace Node

def single? : Node → Option Float32
  | typed s => s.single?
  | written s => if s.mayBe "float" then (Text.real? s.text).bind Scalar.single? else none
  | _ => none

/-- A text; a written scalar is a text whatever it looks like. -/
def text? : Node → Option String
  | typed (.text s) => some s
  | written s => some s.text
  | _ => none

def optional? {α : Type} (read : Node → Option α) : Node → Option (Option α)
  | typed .null => some none
  | written s =>
    match s.isNull? with
    | none => none
    | some true => some none
    | some false => (read (written s)).map some
  | node => (read node).map some

end Node

end SensorEvents
