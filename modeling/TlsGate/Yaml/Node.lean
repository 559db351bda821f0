import TlsGate.Yaml.Lexer
import TlsGate.Yaml.Room
import TlsGate.Yaml.Scalar

/-!
The nodes of a document. A node may stand in several places, and also within itself, because an
alias stands for the node with its anchor; so nodes are numbered, and collections hold numbers.
-/

set_option autoImplicit false
set_option relaxedAutoImplicit false

namespace TlsGate.Yaml

/-- What a node holds; collections hold the numbers of their nodes. -/
inductive Content where
  | scalar (text : Str)
  | sequence (items : List Nat)
  | mapping (pairs : List (Nat × Nat))
  deriving DecidableEq, Repr, Inhabited

/-- A node; one without a tag of its own has the tag that its form resolves to. -/
structure Node where
  tag : Tag
  content : Content
  deriving DecidableEq, Repr, Inhabited

structure Composer where
  tokens : List Token
  fault : Fault
  nodes : Array Node := #[]
  anchors : List (String × Nat) := []
  handles : List (String × String) := []
  depth : Nat := 0

abbrev Compose (α : Type) := StateT Composer (Except Fault) α

namespace Compose

variable [Room]

def peek : Compose Token := do
  let s ← get
  if !Room.nodes s.depth s.tokens then throw .tooDeep
  match s.tokens with
  | [] => throw s.fault
  | t :: _ => return t

def pop : Compose Unit := modify fun s => { s with tokens := s.tokens.drop 1 }

def unexpected {α : Type} : Compose α := throw .malformed

def next (expected : List Token) : Compose Bool := do
  return expected.contains (← peek)

def within {α : Type} (m : Compose α) : Compose α := do
  modify fun s => { s with depth := s.depth + 1 }
  let a ← m
  modify fun s => { s with depth := s.depth - 1 }
  return a

/-- Adds a node, perhaps with an anchor; an anchor may be set only once. -/
def add (anchor : Option String) (n : Node) : Compose Nat := do
  let s ← get
  let number := s.nodes.size
  let anchors ← match anchor with
    | none => pure s.anchors
    | some name =>
      if s.anchors.any (·.1 == name) then throw .malformed
      pure ((name, number) :: s.anchors)
  set { s with nodes := s.nodes.push n, anchors := anchors }
  return number

def fill (number : Nat) (content : Content) : Compose Nat := do
  modify fun s => { s with nodes := s.nodes.modify number fun n => { n with content := content } }
  return number

def absent : Compose Nat := do
  let _ ← peek
  add none ⟨.null, .scalar ""⟩

def properties : Compose (Option String × Option String) := do
  let tag? : Compose (Option String) := do
    match ← peek with
    | .tag handle suffix =>
      pop
      match handle with
      | none => return some suffix
      | some handle =>
        match (← get).handles.find? (·.1 == handle) with
        | some (_, tagPrefix) => return some (tagPrefix ++ suffix)
        | none => throw .malformed
    | _ => return none
  let anchor? : Compose (Option String) := do
    match ← peek with
    | .anchor name => pop; return some name
    | _ => return none
  match ← anchor? with
  | some name => return (some name, ← tag?)
  | none =>
    match ← tag? with
    | some tag => return (← anchor?, some tag)
    | none => return (none, none)

def collectionTag (tag : Option String) (default : Tag) : Tag :=
  match tag with
  | none => default
  | some text => if text = "!" then default else Tag.ofText text

/-- The tag of a scalar. A quoted one without a tag is a text, and the lone exclamation mark asks
for the form even of a quoted one. -/
def scalarTag (tag : Option String) (plain : Bool) (text : Str) : Tag :=
  match tag with
  | none => if plain then formTag text else .str
  | some tag => if tag = "!" then formTag text else Tag.ofText tag

mutual

/-- A node. Within a block it may be a block collection, and as a part of a mapping also a sequence
that is not indented. -/
def node (block indentless : Bool) : (fuel : Nat) → Compose Nat
  | 0 => unexpected
  | fuel + 1 => do
    if let .alias name ← peek then
      pop
      match (← get).anchors.find? (·.1 == name) with
      | some (_, number) => return number
      | none => throw .malformed
    let (anchor, tag) ← properties
    match ← peek with
    | .blockEntry =>
      if indentless then
        let number ← add anchor ⟨collectionTag tag .seq, .sequence []⟩
        fill number (.sequence (← within (indentlessEntries [] fuel)))
      else empty anchor tag
    | .scalar text plain => pop; add anchor ⟨scalarTag tag plain text, .scalar text⟩
    | .flowSequenceStart =>
      pop
      let number ← add anchor ⟨collectionTag tag .seq, .sequence []⟩
      fill number (.sequence (← within (flowItems [] fuel)))
    | .flowMappingStart =>
      pop
      let number ← add anchor ⟨collectionTag tag .map, .mapping []⟩
      fill number (.mapping (← within (flowPairs [] fuel)))
    | .blockSequenceStart =>
      if !block then empty anchor tag
      else
        pop
        let number ← add anchor ⟨collectionTag tag .seq, .sequence []⟩
        fill number (.sequence (← within (blockEntries [] fuel)))
    | .blockMappingStart =>
      if !block then empty anchor tag
      else
        pop
        let number ← add anchor ⟨collectionTag tag .map, .mapping []⟩
        fill number (.mapping (← within (blockPairs [] fuel)))
    | _ => empty anchor tag
where
  empty (anchor tag : Option String) : Compose Nat :=
    if anchor.isNone && tag.isNone then unexpected
    else add anchor ⟨scalarTag tag tag.isNone "", .scalar ""⟩

def blockEntries (before : List Nat) : (fuel : Nat) → Compose (List Nat)
  | 0 => unexpected
  | fuel + 1 => do
    match ← peek with
    | .blockEntry =>
      pop
      let item ← if ← next [.blockEntry, .blockEnd] then absent else node true false fuel
      blockEntries (item :: before) fuel
    | .blockEnd => pop; return before.reverse
    | _ => unexpected

def indentlessEntries (before : List Nat) : (fuel : Nat) → Compose (List Nat)
  | 0 => unexpected
  | fuel + 1 => do
    match ← peek with
    | .blockEntry =>
      pop
      let item ← if ← next [.blockEntry, .key, .value, .blockEnd] then absent
        else node true false fuel
      indentlessEntries (item :: before) fuel
    | _ => return before.reverse

def blockPairs (before : List (Nat × Nat)) : (fuel : Nat) → Compose (List (Nat × Nat))
  | 0 => unexpected
  | fuel + 1 => do
    match ← peek with
    | .key =>
      pop
      let key ← if ← next [.key, .value, .blockEnd] then absent else node true true fuel
      blockPairs ((key, ← blockValue fuel) :: before) fuel
    | .blockEnd => pop; return before.reverse
    | _ => unexpected

def blockValue : (fuel : Nat) → Compose Nat
  | 0 => unexpected
  | fuel + 1 => do
    match ← peek with
    | .value =>
      pop
      if ← next [.key, .value, .blockEnd] then absent else node true true fuel
    | _ => absent

/-- The items of a flow sequence; an item with a key is a mapping of one pair. -/
def flowItems (before : List Nat) : (fuel : Nat) → Compose (List Nat)
  | 0 => unexpected
  | fuel + 1 => do
    if ← next [.flowSequenceEnd] then
      pop
      return before.reverse
    if !before.isEmpty then
      if !(← next [.flowEntry]) then unexpected
      pop
    match ← peek with
    | .key =>
      pop
      let number ← add none ⟨.map, .mapping []⟩
      let pair ← within do
        let key ← if ← next [.value, .flowEntry, .flowSequenceEnd] then absent
          else node false false fuel
        let value ← match ← peek with
          | .value =>
            pop
            if ← next [.flowEntry, .flowSequenceEnd] then absent else node false false fuel
          | _ => absent
        return (key, value)
      flowItems ((← fill number (.mapping [pair])) :: before) fuel
    | .flowSequenceEnd => pop; return before.reverse
    | _ => flowItems ((← node false false fuel) :: before) fuel

def flowPairs (before : List (Nat × Nat)) : (fuel : Nat) → Compose (List (Nat × Nat))
  | 0 => unexpected
  | fuel + 1 => do
    if ← next [.flowMappingEnd] then
      pop
      return before.reverse
    if !before.isEmpty then
      if !(← next [.flowEntry]) then unexpected
      pop
    match ← peek with
    | .key =>
      pop
      let key ← if ← next [.value, .flowEntry, .flowMappingEnd] then absent
        else node false false fuel
      let value ← match ← peek with
        | .value =>
          pop
          if ← next [.flowEntry, .flowMappingEnd] then absent else node false false fuel
        | _ => absent
      flowPairs ((key, value) :: before) fuel
    | .flowMappingEnd => pop; return before.reverse
    | _ =>
      let key ← node false false fuel
      flowPairs ((key, ← absent) :: before) fuel

end

def defaultHandles : List (String × String) := [("!", "!"), ("!!", tagSpace)]

/-- The directives in front of a document: one version at most, of the first major, and each tag
handle once. -/
def directives (versioned : Bool) (handles : List (String × String)) :
    (fuel : Nat) → Compose (List (String × String))
  | 0 => unexpected
  | fuel + 1 => do
    match ← peek with
    | .directive d =>
      pop
      match d with
      | .version major =>
        if versioned || major ≠ 1 then unexpected
        directives true handles fuel
      | .tag handle tagPrefix =>
        if handles.any (·.1 == handle) then unexpected
        directives versioned ((handle, tagPrefix) :: handles) fuel
      | .other => directives versioned handles fuel
    | _ => return handles

def skipEnds : (fuel : Nat) → Compose Unit
  | 0 => unexpected
  | fuel + 1 => do
    if ← next [.documentEnd] then
      pop
      skipEnds fuel

def explicitRoot (fuel : Nat) : Compose (Option Nat) := do
  skipEnds fuel
  if ← next [.streamEnd] then return none
  let handles ← directives false [] fuel
  modify fun s => { s with handles := handles ++ defaultHandles }
  if !(← next [.documentStart]) then unexpected
  pop
  match ← peek with
  | .directive _ => return some (← absent)
  | .documentStart => return some (← absent)
  | .documentEnd => return some (← absent)
  | .streamEnd => return some (← absent)
  | _ => return some (← node true false fuel)

def root (fuel : Nat) : Compose (Option Nat) := do
  let found ← match ← peek with
    | .directive _ => explicitRoot fuel
    | .documentStart => explicitRoot fuel
    | .streamEnd => pure none
    | _ => do
      modify fun s => { s with handles := defaultHandles }
      pure (some (← node true false fuel))
  if found.isSome then
    skipEnds fuel
    if !(← next [.streamEnd]) then unexpected
  return found

end Compose

def compose [Room] (stream : List Char) : Except Fault (Array Node × Option Nat) := do
  let (found, fault) := tokens stream
  let atEnd := match fault with
    | some .value => Fault.value
    | some .overflow => .overflow
    | _ => .malformed
  let (root, s) ← (Compose.root (4 * found.length + 8)).run { tokens := found, fault := atEnd }
  return (s.nodes, root)

end TlsGate.Yaml
