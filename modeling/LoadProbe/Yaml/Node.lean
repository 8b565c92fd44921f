import LoadProbe.Yaml.Lexer

/-!
# Nodes

A document is a tree of scalars, sequences and mappings, in which a reference stands for a node
that was anchored before. `Document.ofTokens?` builds it from the tokens of a text; a text holds
one document at most.

Anchors are numbered by how many other names had been anchored before, and a reference keeps the
number of its name at that point. It stands for the last node of the document with this number
(`Document.referent`), which may come after the reference.
-/

namespace LoadProbe.Yaml

inductive Node where
  /-- A scalar; its tag is that of the text, with its handle written out. -/
  | scalar (text : String) (style : Style) (tag : Option Tag)
  | sequence (items : List Node)
  | mapping (entries : List (Node × Node))
  /-- A reference to the anchor of this number. -/
  | reference (number : Nat)

namespace Node

/-- Where nothing is written, an empty scalar stands. -/
def empty : Node := .scalar "" .plain none

mutual

/-- How many marks a node is written with: one for a scalar or reference, one for either end of a
sequence or mapping, and those of what is in it. -/
def weight : Node → Nat
  | scalar _ _ _ => 1
  | sequence items => 2 + itemsWeight items
  | mapping entries => 2 + entriesWeight entries
  | reference _ => 1

def itemsWeight : List Node → Nat
  | [] => 0
  | n :: items => weight n + itemsWeight items

def entriesWeight : List (Node × Node) → Nat
  | [] => 0
  | (k, v) :: entries => weight k + weight v + entriesWeight entries

end

end Node

/-- An anchor of a document; its node is known once it has been read. -/
structure Anchor where
  name : String
  number : Nat
  node? : Option Node

/-- What is left of the tokens, and what is known of the document. -/
structure Reading where
  tokens : List Token
  /-- The handles of tags and what they stand for. -/
  handles : List (String × Tag)
  anchors : Array Anchor

/-- A step of reading nodes, which may fail. -/
abbrev Step := StateT Reading Option

namespace Step

/-- The next token, which is left in place. -/
def peek : Step (Option Token) := do return (← get).tokens.head?

/-- Leaves the next token behind. -/
def skip : Step Unit := modify fun r => { r with tokens := r.tokens.tail }

/-- Leaves the next token behind if it is this one. -/
def accept (t : Token) : Step Bool := do
  if (← peek) = some t then
    skip
    return true
  else return false

/-- Numbers a new anchor. The result is its place among the anchors. -/
def declare (name : String) : Step Nat := do
  let anchors := (← get).anchors
  let number := (anchors.toList.map Anchor.name).eraseDups.length
  modify fun r => { r with anchors := anchors.push ⟨name, number, none⟩ }
  return anchors.size

/-- Notes the node of an anchor. -/
def settle (place : Nat) (n : Node) : Step Unit :=
  modify fun r => { r with anchors := r.anchors.modify place fun a => { a with node? := some n } }

/-- The number of the anchor that a reference names. -/
def numberOf (name : String) : Step Nat := do
  match (← get).anchors.toList.reverse.find? fun a => a.name == name with
  | some a => return a.number
  | none => failure

/-- A tag with its handle written out. -/
def fullTag (handle : String) (suffix : Tag) : Step Tag := do
  if handle.isEmpty then return suffix
  else
    match (← get).handles.lookup handle with
    | some stem => return stem.append suffix
    | none => failure

/-- The anchor and the tag that stand before a node, in either order. -/
def properties : Step (Option String × Option Tag) := do
  let anchor? : Step (Option String) := do
    match ← peek with
    | some (.anchor name) => do skip; return some name
    | _ => return none
  let tag? : Step (Option (String × Tag)) := do
    match ← peek with
    | some (.tag handle suffix) => do skip; return some (handle, suffix)
    | _ => return none
  let before ← anchor?
  let tag ← tag?
  let anchor ← if before.isNone && tag.isSome then anchor? else pure before
  match tag with
  | none => return (anchor, none)
  | some (handle, suffix) => return (anchor, some (← fullTag handle suffix))

/-- Nothing is written where one of these tokens stands next. -/
def emptyBefore (ends : List Token) : Step Bool := do
  match ← peek with
  | some t => return ends.contains t
  | none => return false

mutual

/-- A node. `block` allows block collections, `hyphens` block sequences without an indentation of
their own. -/
def node : (fuel : Nat) → (block hyphens : Bool) → Step Node
  | 0, _, _ => failure
  | fuel + 1, block, hyphens => do
    match ← peek with
    | some (.reference name) =>
      skip
      return .reference (← numberOf name)
    | _ =>
      let (anchor, tag) ← properties
      match anchor with
      | none => content fuel block hyphens false tag
      | some name =>
        let place ← declare name
        let n ← content fuel block hyphens true tag
        settle place n
        return n

/-- A node behind its anchor, if it is `anchored`, and its tag. -/
def content : (fuel : Nat) → (block hyphens anchored : Bool) → (tag : Option Tag) → Step Node
  | 0, _, _, _, _ => failure
  | fuel + 1, block, hyphens, anchored, tag => do
    match ← peek, block, hyphens with
    | some .blockEntry, _, true => return .sequence (← looseItems fuel)
    | some (.scalar text style), _, _ =>
      skip
      return .scalar text style tag
    | some .flowSequence, _, _ =>
      skip
      return .sequence (← flowItems fuel true)
    | some .flowMapping, _, _ =>
      skip
      return .mapping (← flowEntries fuel true)
    | some .blockSequence, true, _ =>
      skip
      return .sequence (← blockItems fuel)
    | some .blockMapping, true, _ =>
      skip
      return .mapping (← blockEntries fuel)
    | _, _, _ => if anchored || tag.isSome then return .scalar "" .plain tag else failure

/-- A node, or an empty scalar where one of the tokens `ends` stands next. -/
def optionalNode : (fuel : Nat) → (block hyphens : Bool) → (ends : List Token) → Step Node
  | 0, _, _, _ => failure
  | fuel + 1, block, hyphens, ends => do
    if ← emptyBefore ends then return .empty else node fuel block hyphens

/-- The items of a block sequence. -/
def blockItems : (fuel : Nat) → Step (List Node)
  | 0 => failure
  | fuel + 1 => do
    if ← accept .blockEntry then
      let n ← optionalNode fuel true false [.blockEntry, .blockEnd]
      return n :: (← blockItems fuel)
    else if ← accept .blockEnd then return []
    else failure

/-- The items of a block sequence that stands in the column of its key. -/
def looseItems : (fuel : Nat) → Step (List Node)
  | 0 => failure
  | fuel + 1 => do
    if ← accept .blockEntry then
      let n ← optionalNode fuel true false [.blockEntry, .key, .value, .blockEnd]
      return n :: (← looseItems fuel)
    else return []

/-- The entries of a block mapping. -/
def blockEntries : (fuel : Nat) → Step (List (Node × Node))
  | 0 => failure
  | fuel + 1 => do
    if ← accept .key then
      let k ← optionalNode fuel true true [.key, .value, .blockEnd]
      let v ← if ← accept .value then optionalNode fuel true true [.key, .value, .blockEnd]
        else pure .empty
      return (k, v) :: (← blockEntries fuel)
    else if ← accept .blockEnd then return []
    else failure

/-- The items of a sequence in brackets. -/
def flowItems : (fuel : Nat) → (first : Bool) → Step (List Node)
  | 0, _ => failure
  | fuel + 1, first => do
    let more ← if first then pure true else accept .flowEntry
    if !more then
      if ← accept .flowSequenceEnd then return [] else failure
    else
      if ← accept .flowSequenceEnd then return []
      else if ← accept .key then
        let entry ← flowPair fuel
        return .mapping [entry] :: (← flowItems fuel false)
      else
        let n ← node fuel false false
        return n :: (← flowItems fuel false)

/-- The single entry of a mapping that is an item in brackets. An empty key takes the token after
it along. -/
def flowPair : (fuel : Nat) → Step (Node × Node)
  | 0 => failure
  | fuel + 1 => do
    let k ← if ← emptyBefore [.value, .flowEntry, .flowSequenceEnd] then do
        skip
        pure Node.empty
      else node fuel false false
    let v ← if ← accept .value then optionalNode fuel false false [.flowEntry, .flowSequenceEnd]
      else pure .empty
    return (k, v)

/-- The entries of a mapping in braces. -/
def flowEntries : (fuel : Nat) → (first : Bool) → Step (List (Node × Node))
  | 0, _ => failure
  | fuel + 1, first => do
    let more ← if first then pure true else accept .flowEntry
    if !more then
      if ← accept .flowMappingEnd then return [] else failure
    else
      if ← accept .flowMappingEnd then return []
      else if ← accept .key then
        let k ← optionalNode fuel false false [.value, .flowEntry, .flowMappingEnd]
        let v ← if ← accept .value then optionalNode fuel false false [.flowEntry, .flowMappingEnd]
          else pure .empty
        return (k, v) :: (← flowEntries fuel false)
      else
        let k ← node fuel false false
        return (k, .empty) :: (← flowEntries fuel false)

end

/-- The directives before a document: whether a version has been given, and the handles. -/
def directives : (fuel : Nat) → (versioned : Bool) → (handles : List (String × Tag)) →
    Step (List (String × Tag))
  | 0, _, _ => failure
  | fuel + 1, versioned, handles => do
    match ← peek with
    | some (.version major minor) =>
      if versioned || !(major = 1 && (minor = 1 || minor = 2)) then failure
      else
        skip
        directives fuel true handles
    | some (.shorthand handle stem) =>
      if (handles.lookup handle).isSome then failure
      else
        skip
        directives fuel versioned (handles ++ [(handle, stem)])
    | _ => return handles

/-- The handles that need no directive. -/
def standardHandles : List (String × Tag) :=
  [("!", .ofText "!"), ("!!", .ofText "tag:yaml.org,2002:")]

/-- Skips the marks that end a document. -/
def endMarks : (fuel : Nat) → Step Unit
  | 0 => return ()
  | fuel + 1 => do
    if ← accept .documentEnd then endMarks fuel

/-- The root of a document. -/
def root (fuel : Nat) : Step Node := do
  match ← peek with
  | none => return .empty
  | some (.version _ _) | some (.shorthand _ _) | some .documentStart =>
    let handles ← directives fuel false []
    modify fun r => { r with handles := handles ++ standardHandles }
    if ← accept .documentStart then
      match ← peek with
      | none | some (.version _ _) | some (.shorthand _ _) | some .documentStart
      | some .documentEnd => return .empty
      | some _ => node fuel true false
    else failure
  | some _ => node fuel true false

end Step

/-- A document: its root, and the nodes of its anchors by their numbers, the last ones first. -/
structure Document where
  root : Node
  anchored : List (Nat × Node)

namespace Document

/-- The one document that tokens make up. A text of no tokens reads as an empty scalar. -/
def ofTokens? (tokens : List Token) : Option Document := do
  -- between two tokens at most three steps go down
  let fuel := 4 * tokens.length + 8
  let (root, r) ← (Step.root fuel).run ⟨tokens, Step.standardHandles, #[]⟩
  let ((), r) ← (Step.endMarks fuel).run r
  if !r.tokens.isEmpty then none
  else
    let anchored := r.anchors.toList.filterMap fun a => a.node?.map fun n => (a.number, n)
    return ⟨root, anchored.reverse⟩

/-- The document that a text holds. -/
def read? (text : String) : Option Document := do
  ofTokens? (← tokens? text)

/-- The node that references to a number stand for. -/
def referent (d : Document) (number : Nat) : Node :=
  (d.anchored.lookup number).getD .empty

end Document

end LoadProbe.Yaml
