import SensorEvents.Document.Reading
import SensorEvents.Yaml.Anchor

/-!
# The document of a YAML stream

The tokens of a stream are put together to one document. Aliases stay what they are; the document
comes with the nodes at its anchors. A stream with a second document has none.
-/
namespace SensorEvents.Yaml

/-- The handles of tags, with what they stand for. -/
abbrev Handles := List (String × Address)

def commonHandles : Handles := [("!", (Tag.ofText "!").bytes), ("!!", (Tag.core "").bytes)]

/-- The tokens to come, the anchors that the aliases among them stand for, and what is known of the
anchors before. -/
structure Reader where
  tokens : List Token
  targets : List Nat
  handles : Handles := commonHandles
  /-- How many anchors there were. -/
  anchored : Nat := 0
  /-- The nodes at anchors, as far as they are read. -/
  anchors : Anchors := []

namespace Reader

def peek? (r : Reader) : Option Token := r.tokens.head?

def next (r : Reader) : Reader := { r with tokens := r.tokens.tail }

def isAtAny (r : Reader) (tokens : List Token) : Bool := r.peek?.any (tokens.contains ·)

/-- What stands in front of a node: the place of its anchor among all, and its tag. -/
structure Properties where
  anchor : Option Nat := none
  tag : Option Tag := none

/-- Read the anchor that comes next, if there is one. -/
def anchor (p : Properties) (r : Reader) : Properties × Reader :=
  match r.tokens with
  | .anchor _ :: tokens =>
    ({ p with anchor := some r.anchored }, { r with tokens, anchored := r.anchored + 1 })
  | _ => (p, r)

/-- The tag that is written by a handle or as a whole. -/
def resolve? (r : Reader) : WrittenTag → Option Tag
  | .whole address => some ⟨address⟩
  | .under handle rest => (r.handles.lookup handle).map fun start => ⟨start ++ rest⟩

/-- Read the tag that comes next, if there is one. -/
def tag? (p : Properties) (r : Reader) : Option (Properties × Reader) :=
  match r.tokens with
  | .tag written :: tokens => do
    return ({ p with tag := some (← r.resolve? written) }, { r with tokens })
  | _ => some (p, r)

/-- Read an anchor and a tag, in either order. -/
def properties? (r : Reader) : Option (Properties × Reader) :=
  match r.tokens with
  | .anchor _ :: _ => let (p, r) := r.anchor {}; r.tag? p
  | _ => do
    let (p, r) ← r.tag? {}
    return if p.tag.isSome then r.anchor p else (p, r)

namespace Properties

/-- Whether there is an anchor or a tag. -/
def isSome (p : Properties) : Bool := p.anchor.isSome || p.tag.isSome

def scalar (p : Properties) (text : String) (style : ScalarStyle) : Node :=
  .written { text, style, tag := p.tag }

/-- Whether a collection is marked with a type of the document's own. -/
def marks (p : Properties) : Bool := p.tag.any Tag.namesType

/-- Properties with nothing after them are on an empty scalar. -/
def alone? (p : Properties) (r : Reader) : Option (Node × Reader) :=
  if p.isSome then some (p.scalar "" .plain, r) else none

def remember (p : Properties) (node : Node) (r : Reader) : Reader :=
  match p.anchor with
  | some place => { r with anchors := (place, node) :: r.anchors }
  | none => r

end Properties

/-- What ends an entry of a block mapping. -/
def blockEnds : List Token := [.key, .value, .blockEnd]

mutual

/-- Read a node. Block collections are read only where `block` allows them, and a sequence that is
not indented further than the key before it only where `indentless` does. -/
def node? (block indentless : Bool) : Nat → Reader → Option (Node × Reader)
  | 0, _ => none
  | fuel + 1, r =>
    match r.tokens, r.targets with
    | .alias _ :: tokens, target :: targets => some (.alias target, { r with tokens, targets })
    | _, _ => do
      let (p, r) ← r.properties?
      let (node, r) ← content? block indentless p fuel r
      return (node, p.remember node r)

/-- Read what follows the properties of a node. -/
def content? (block indentless : Bool) (p : Properties) : Nat → Reader → Option (Node × Reader)
  | 0, _ => none
  | fuel + 1, r =>
    match r.tokens with
    | .scalar text style :: tokens => some (p.scalar text style, { r with tokens })
    | .flowSequenceStart :: tokens => do
      let (items, r) ← flowItems? true fuel { r with tokens }
      return (.list items p.marks, r)
    | .flowMappingStart :: tokens => do
      let (entries, r) ← flowEntries? true fuel { r with tokens }
      return (.fields entries p.marks, r)
    | token :: tokens =>
      if token = .blockEntry && indentless then do
        let (items, r) ← indentlessItems? fuel r
        return (.list items p.marks, r)
      else if token = .blockSequenceStart && block then do
        let (items, r) ← blockItems? fuel { r with tokens }
        return (.list items p.marks, r)
      else if token = .blockMappingStart && block then do
        let (entries, r) ← blockEntries? fuel { r with tokens }
        return (.fields entries p.marks, r)
      else
        p.alone? r
    | [] => p.alone? r

/-- Read a node, or nothing before one of some tokens. -/
def nodeUnless? (ends : List Token) (block : Bool) : Nat → Reader → Option (Node × Reader)
  | 0, _ => none
  | fuel + 1, r => if r.isAtAny ends then some (.absent, r) else node? block block fuel r

/-- Read a colon and the value after it, or nothing when there is no colon. -/
def valueUnless? (ends : List Token) (block : Bool) : Nat → Reader → Option (Node × Reader)
  | 0, _ => none
  | fuel + 1, r =>
    if r.peek? = some .value then nodeUnless? ends block fuel r.next else some (.absent, r)

def blockItems? : Nat → Reader → Option (List Node × Reader)
  | 0, _ => none
  | fuel + 1, r =>
    match r.tokens with
    | .blockEnd :: _ => some ([], r.next)
    | .blockEntry :: _ => do
      let r := r.next
      let (item, r) ←
        if r.isAtAny [.blockEntry, .blockEnd] then some (.absent, r) else node? true false fuel r
      let (items, r) ← blockItems? fuel r
      return (item :: items, r)
    | _ => none

/-- The items of a sequence that is not indented. -/
def indentlessItems? : Nat → Reader → Option (List Node × Reader)
  | 0, _ => none
  | fuel + 1, r =>
    match r.tokens with
    | .blockEntry :: _ => do
      let r := r.next
      let (item, r) ←
        if r.isAtAny (.blockEntry :: blockEnds) then some (.absent, r) else node? true false fuel r
      let (items, r) ← indentlessItems? fuel r
      return (item :: items, r)
    | _ => some ([], r)

def blockEntries? : Nat → Reader → Option (List (Node × Node) × Reader)
  | 0, _ => none
  | fuel + 1, r =>
    match r.tokens with
    | .blockEnd :: _ => some ([], r.next)
    | .key :: _ => do
      let (key, r) ← nodeUnless? blockEnds true fuel r.next
      let (value, r) ← valueUnless? blockEnds true fuel r
      let (entries, r) ← blockEntries? fuel r
      return ((key, value) :: entries, r)
    | _ => none

/-- The items of a flow sequence. A key among them begins a mapping of one entry; where the key is
empty, the token after it counts as read. -/
def flowItems? (first : Bool) : Nat → Reader → Option (List Node × Reader)
  | 0, _ => none
  | fuel + 1, r =>
    if r.peek? = some .flowSequenceEnd then some ([], r.next)
    else if !first && r.peek? ≠ some .flowEntry then none
    else
      let r := if first then r else r.next
      if r.peek? = some .flowSequenceEnd then some ([], r.next)
      else if r.peek? = some .key then do
        let r := r.next
        let (key, r) ←
          if r.isAtAny [.value, .flowEntry, .flowSequenceEnd] then some (.absent, r.next)
          else node? false false fuel r
        let (value, r) ← valueUnless? [.flowEntry, .flowSequenceEnd] false fuel r
        let (items, r) ← flowItems? false fuel r
        return (.fields [(key, value)] false :: items, r)
      else do
        let (item, r) ← node? false false fuel r
        let (items, r) ← flowItems? false fuel r
        return (item :: items, r)

/-- The entries of a flow mapping. A node without a key token before it is a key without value. -/
def flowEntries? (first : Bool) : Nat → Reader → Option (List (Node × Node) × Reader)
  | 0, _ => none
  | fuel + 1, r =>
    if r.peek? = some .flowMappingEnd then some ([], r.next)
    else if !first && r.peek? ≠ some .flowEntry then none
    else
      let r := if first then r else r.next
      if r.peek? = some .flowMappingEnd then some ([], r.next)
      else if r.peek? = some .key then do
        let (key, r) ← nodeUnless? [.value, .flowEntry, .flowMappingEnd] false fuel r.next
        let (value, r) ← valueUnless? [.flowEntry, .flowMappingEnd] false fuel r
        let (entries, r) ← flowEntries? false fuel r
        return ((key, value) :: entries, r)
      else do
        let (key, r) ← node? false false fuel r
        let (entries, r) ← flowEntries? false fuel r
        return ((key, .absent) :: entries, r)

end

/-- Read the directives in front of a document: at most one version, which is 1.1 or 1.2, and
handles that are all different. -/
def directives? (versioned : Bool) (handles : Handles) :
    List Token → Option (Handles × List Token)
  | .version major minor :: tokens =>
    if versioned || major ≠ 1 || (minor ≠ 1 && minor ≠ 2) then none
    else directives? true handles tokens
  | .tagHandle handle address :: tokens =>
    if (handles.lookup handle).isSome then none
    else directives? versioned ((handle, address) :: handles) tokens
  | tokens => some (handles, tokens)

def isBetween : Token → Bool
  | .version .. | .tagHandle .. | .documentStart | .documentEnd => true
  | _ => false

/-- How many calls reading the tokens takes at most. -/
def fuel (r : Reader) : Nat := 4 * r.tokens.length + 8

def document? (r : Reader) : Option (Node × Reader) :=
  match r.tokens with
  | [] => some (.absent, r)
  | first :: _ =>
    if isBetween first && first ≠ .documentEnd then do
      let (handles, tokens) ← directives? false [] r.tokens
      let r := { r with tokens, handles := handles ++ commonHandles }
      if r.peek? ≠ some .documentStart then none
      let r := r.next
      if r.peek?.all isBetween then some (.absent, r)
      else node? true false r.fuel r
    else
      node? true false r.fuel r

end Reader

def read? (text : String) : Option Document := do
  let tokens ← tokens? text
  let (node, r) ← Reader.document? { tokens, targets := ← aliasTargets? tokens }
  if r.tokens.all (· = .documentEnd) then some (.ofWritten node r.anchors) else none

end SensorEvents.Yaml
