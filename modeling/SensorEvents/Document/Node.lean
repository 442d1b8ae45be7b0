import SensorEvents.Text.Decimal

/-!
# Documents

A document is a tree of scalars, lists and fields. In some formats the type of a scalar is fixed
when it is read; in others a scalar is only text, and what it means depends on the setting it is
given for. `Scalar` and `WrittenScalar` are the two. An alias stands for a node elsewhere in the
document, which may be the one around it.
-/
namespace SensorEvents

/-- A tag in front of a node says of what type the node is. It is a sequence of bytes, because a tag
can be spelled byte by byte and need not be the text of anything. A tag that begins with an
exclamation mark belongs to the document alone; the types that every document knows have tags in a
common name space. -/
structure Tag where
  bytes : List UInt8
  deriving DecidableEq, Repr

namespace Tag

def ofText (text : String) : Tag := ⟨text.toUTF8.data.toList⟩

/-- The tag of a type that every document knows. -/
def core (type : String) : Tag := ofText ("tag:yaml.org,2002:" ++ type)

/-- Whether a tag belongs to the document alone. -/
def isLocal (t : Tag) : Bool := t.bytes.head? = some '!'.toUInt8

/-- Whether a tag names a type of the document's own. One whose name is not readable as text names
none. -/
def namesType (t : Tag) : Bool := t.isLocal && t.bytes.tail.toByteArray.validateUTF8

end Tag

inductive Scalar where
  | null
  | bool (value : Bool)
  | natural (value : Nat)
  /-- An integer with a minus sign, which zero can have too. -/
  | negated (magnitude : Nat)
  | real (value : Decimal)
  | infinity (negative : Bool)
  | notANumber
  | text (value : String)
  deriving DecidableEq, Repr

inductive ScalarStyle where
  | plain
  | quoted
  /-- A block that keeps its lines. -/
  | literal
  /-- A block whose lines are joined. -/
  | folded
  deriving DecidableEq, Repr

/-- A scalar as it is written, with the tag in front of it. -/
structure WrittenScalar where
  text : String
  style : ScalarStyle := .plain
  tag : Option Tag := none
  deriving DecidableEq, Repr

/-- A document, or a part of one. A collection can be marked with a tag that names a type of the
document's own. -/
inductive Node where
  | written (scalar : WrittenScalar)
  | typed (scalar : Scalar)
  | list (items : List Node) (marked : Bool)
  | fields (entries : List (Node × Node)) (marked : Bool)
  /-- What stands at an anchor of the document, the first of which is number zero. -/
  | alias (anchor : Nat)
  deriving Repr

namespace Node

def absent : Node := written { text := "" }

mutual

/-- How many marks it takes to write a node down in order: one for a scalar or an alias, and a
beginning and an end for a collection. -/
def size : Node → Nat
  | list items _ => sizeOfItems items + 2
  | fields entries _ => sizeOfEntries entries + 2
  | _ => 1

def sizeOfItems : List Node → Nat
  | [] => 0
  | item :: items => size item + sizeOfItems items

def sizeOfEntries : List (Node × Node) → Nat
  | [] => 0
  | (key, value) :: entries => size key + size value + sizeOfEntries entries

end

end Node

end SensorEvents
