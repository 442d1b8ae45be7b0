import SensorEvents.Document.Typing

/-!
# How a document is read

What is accepted depends on how a document came to be, which `Reading` says. Where scalars are
written, collections may be nested only so deep, counted from the root, and an alias is followed
when its node is read and not before: one that nobody asks for stands for nothing. `Metered`
limits how many are followed, so that aliases within aliases cannot make a short document long.
-/
namespace SensorEvents

/-- The nodes at the anchors of a document, each with the place of its anchor among all. -/
abbrev Anchors := List (Nat × Node)

/-- How a part of a document is read. -/
inductive Reading where
  /-- Scalars are written, and each setting reads them in its own way; collections may be nested
  `depth` deep from here. -/
  | written (anchors : Anchors) (depth : Nat)
  /-- Scalars have their types from the start. -/
  | typed
  /-- The part lies below a variant: scalars are typed, and names may also be given by number. -/
  | below

/-- A reading that may fail. Its state is how many aliases may still be followed. -/
abbrev Metered (α : Type) := StateT Nat Option α

namespace Anchors

/-- What a node stands for. Following an alias counts. -/
def follow (anchors : Anchors) : Node → Metered Node
  | .alias anchor => fun left =>
    match left with
    | 0 => none
    | left + 1 => (anchors.lookup anchor).map fun node => (node, left)
  | node => pure node

/-- Give every scalar its type, with collections nested at most `depth` deep. None of them may be
marked with a tag. -/
def resolve? (anchors : Anchors) (depth : Nat) (node : Node) : Metered Node := do
  let node ← anchors.follow node
  match depth, node with
  | _, .written s => return .typed (← s.resolve?)
  | _, .typed s => return .typed s
  | depth + 1, .list items false => return .list (← items.mapM (resolve? anchors depth)) false
  | depth + 1, .fields entries false =>
    let entry (e : Node × Node) : Metered (Node × Node) := do
      let key ← resolve? anchors depth e.1
      let value ← resolve? anchors depth e.2
      return (key, value)
    return .fields (← entries.mapM entry) false
  | _, _ => failure

end Anchors

namespace Reading

def follow (reading : Reading) (node : Node) : Metered Node :=
  match reading with
  | written anchors _ => anchors.follow node
  | typed | below => Anchors.follow [] node

/-- How the parts of a collection are read. -/
def inside? : Reading → Option Reading
  | written _ 0 => none
  | written anchors (depth + 1) => some (written anchors depth)
  | typed => some typed
  | below => some below

/-- Give every scalar its type, if it has none yet. -/
def resolve? (reading : Reading) (node : Node) : Metered Node :=
  match reading with
  | written anchors depth => anchors.resolve? depth node
  | typed | below => pure node

end Reading

/-- A document, with how it is read and how many aliases may be followed. -/
structure Document where
  root : Node
  reading : Reading
  limit : Nat

namespace Document

def ofTyped (root : Node) : Document := { root, reading := .typed, limit := 0 }

/-- How deep the collections of a written document may be nested. -/
def nesting : Nat := 128

/-- A document whose scalars are written. A hundred aliases may be followed for each mark it takes
to write it down. -/
def ofWritten (root : Node) (anchors : Anchors) : Document :=
  { root, reading := .written anchors nesting, limit := 100 * root.size }

def read? {α : Type} (d : Document) (read : Reading → Node → Metered α) : Option α :=
  (read d.reading d.root).run' d.limit

end Document

end SensorEvents
