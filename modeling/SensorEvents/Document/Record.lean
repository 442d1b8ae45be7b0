import SensorEvents.Document.Reading

/-!
# Records and variants in documents

Settings stand in a document as records: fields by name, of which unknown ones are ignored and
known ones may not be repeated, or a list of the values in order. A variant is a record with its
kind among the fields; below it every scalar is typed before its setting is known.
-/
namespace SensorEvents

/-- The known fields of a record by name, and how they are read. -/
structure Record where
  reading : Reading
  entries : List (String × Node) := []

namespace Node

/-- The name of a field among the known ones; `some none` when it is not known. -/
def fieldName? (reading : Reading) (names : List String) (key : Node) : Option (Option String) :=
  match reading, key with
  | .below, typed (.natural n) => some names[n]?
  | _, key => key.text?.map fun name => if name ∈ names then some name else none

/-- Collect the known fields; one that is repeated is refused. -/
def collect? (reading : Reading) (names : List String) :
    List (Node × Node) → Metered (List (String × Node))
  | [] => return []
  | (key, value) :: entries => do
    let name ← (← reading.follow key).fieldName? reading names
    let known ← collect? reading names entries
    match name with
    | none => return known
    | some name => if (known.lookup name).isSome then failure else return (name, value) :: known

/-- A record with the given fields. Where scalars are written, nothing is an empty record. -/
def record? (reading : Reading) (names : List String) (node : Node) : Metered Record := do
  match reading, ← reading.follow node with
  | _, fields entries _ =>
    let reading ← reading.inside?
    return { reading, entries := ← collect? reading names entries }
  | .written .., written s => if s.isEmpty then return { reading } else failure
  | .written .., _ => failure
  | _, list items _ =>
    if items.length ≤ names.length then return { reading, entries := names.zip items }
    else failure
  | _, _ => failure

/-- The items of a list, and how they are read. Where scalars are written, nothing is an empty
list. -/
def items? (reading : Reading) (node : Node) : Metered (Reading × List Node) := do
  match ← reading.follow node with
  | list items _ => return (← reading.inside?, items)
  | written s => if s.isEmpty then return (reading, []) else failure
  | _ => failure

/-- Whether a key names the kind of a variant. -/
def isKindKey (key : Node) : Bool :=
  match key with
  | written s => s.resolve? = some (.text "kind")
  | typed s => s = .text "kind"
  | _ => false

def kind? (reading : Reading) (kinds : List String) (node : Node) : Option String := do
  let name ← node.fieldName? reading kinds
  name

/-- The kind of a variant and the record under it, in which everything is typed. -/
def variant? (reading : Reading) (kinds : List String) (node : Node) :
    Metered (String × Node) := do
  let (kindNode, rest) ← match ← reading.follow node with
    | fields entries false => do
      let entries ← entries.mapM fun (key, value) => return (← reading.follow key, value)
      match entries.partition fun e => e.1.isKindKey with
      | ([(_, kindNode)], others) => pure (kindNode, fields others false)
      | _ => failure
    | list (kindNode :: items) false => pure (kindNode, list items false)
    | _ => failure
  let kind ← (← reading.follow kindNode).kind? reading kinds
  return (kind, ← reading.resolve? rest)

end Node

namespace Record

/-- A part of a record that has to be there. -/
def part? {α : Type} (r : Record) (name : String) (read : Reading → Node → Metered α) :
    Metered α := do
  read r.reading (← r.entries.lookup name)

/-- A part of a record that may be left out. -/
def partD? {α : Type} (r : Record) (name : String) (value : α)
    (read : Reading → Node → Metered α) : Metered α :=
  match r.entries.lookup name with
  | some node => read r.reading node
  | none => return value

def scalar {α : Type} (read : Node → Option α) (reading : Reading) (node : Node) : Metered α := do
  read (← reading.follow node)

def required? {α : Type} (r : Record) (name : String) (read : Node → Option α) : Metered α :=
  r.part? name (scalar read)

def defaulted? {α : Type} (r : Record) (name : String) (value : α) (read : Node → Option α) :
    Metered α :=
  r.partD? name value (scalar read)

end Record

end SensorEvents
