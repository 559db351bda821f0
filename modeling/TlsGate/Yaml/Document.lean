import TlsGate.Yaml.Node

/-!
The value of a document. Nodes get their values from the root on, level by level, so that of several
faults the one nearest to the root is met first. Mappings take in the mappings they merge, and their
keys have to be scalars.
-/

set_option autoImplicit false
set_option relaxedAutoImplicit false

namespace TlsGate.Yaml

inductive Kind where
  | scalar (s : Scalar)
  | list
  | mapping
  | set
  deriving DecidableEq, Repr

/-- The state of finding values. -/
structure Builder where
  nodes : Array Node
  kinds : Array (Option Kind)
  entries : Array (List (Scalar × Nat))
  pending : List Nat := []

abbrev Build (α : Type) := StateT Builder (Except Fault) α

namespace Build

variable [Room]

def node (number : Nat) : Build Node := do return (← get).nodes.getD number default

/-- The text of a scalar, or of the value under the mark of a mapping that stands for a scalar. A
mapping may stand for itself, and then the search for a text has no end but that of the room. -/
def textOf (depth : Nat) : (fuel : Nat) → Nat → Build Str
  | 0, _ => throw .tooDeep
  | fuel + 1, number => do
    if !Room.marks depth then throw .tooDeep
    match (← node number).content with
    | .scalar text => return text
    | .sequence _ => throw .malformed
    | .mapping pairs =>
      for (key, value) in pairs do
        if (← node key).tag = .value then return (← textOf (depth + 1) fuel value)
      throw .malformed

def setKind (number : Nat) (kind : Kind) : Build Kind := do
  modify fun s => { s with kinds := s.kinds.setIfInBounds number (some kind) }
  return kind

/-- The kind of a node. The parts of a collection are left for later. -/
def reach (number : Nat) : Build Kind := do
  let s ← get
  if let some (some kind) := s.kinds[number]? then return kind
  let n ← node number
  let collection := fun kind => do
    modify fun s => { s with pending := number :: s.pending }
    setKind number kind
  match n.tag with
  | .map => collection .mapping
  | .set => collection .set
  | .seq => collection .list
  | .omap => collection .list
  | .pairs => collection .list
  | .merge => throw .malformed
  | .value => throw .malformed
  | .other => throw .malformed
  | tag =>
    let text ← textOf 0 (s.nodes.size + 1) number
    if tag = .timestamp then
      match n.content with
      | .scalar _ => pure ()
      | _ => throw .notText
    setKind number (.scalar (← readScalar tag text))

/-- Takes into a mapping the pairs of the mappings it merges: they stand in front of its own, those
of a list of mappings from the last to the first. -/
def flatten (depth : Nat) : (fuel : Nat) → Nat → Build (List (Nat × Nat))
  | 0, _ => throw .tooDeep
  | fuel + 1, number => do
    if !Room.merges depth then throw .tooDeep
    let .mapping pairs := (← node number).content | throw .malformed
    let mut merged : List (Nat × Nat) := []
    let mut left := pairs
    let mut kept : List (Nat × Nat) := []
    for (key, value) in pairs do
      let keyNode ← node key
      left := left.drop 1
      if keyNode.tag = .merge then
        modify fun s => { s with
          nodes := s.nodes.modify number fun n => { n with content := .mapping (kept ++ left) } }
        match (← node value).content with
        | .mapping _ => merged := merged ++ (← flatten (depth + 1) fuel value)
        | .sequence items =>
          let mut lists : List (List (Nat × Nat)) := []
          for item in items do
            match (← node item).content with
            | .mapping _ => lists := (← flatten (depth + 1) fuel item) :: lists
            | _ => throw .malformed
          merged := merged ++ lists.flatten
        | .scalar _ => throw .malformed
      else
        if keyNode.tag = .value then
          modify fun s => { s with
            nodes := s.nodes.modify key fun n => { n with tag := .str } }
        kept := kept ++ [(key, value)]
    let all := merged ++ kept
    modify fun s => { s with
      nodes := s.nodes.modify number fun n => { n with content := .mapping all } }
    return all

/-- Sets the value under a key; a key that is there keeps its place and its first form. -/
def putEntry (key : Scalar) (value : Nat) : List (Scalar × Nat) → List (Scalar × Nat)
  | [] => [(key, value)]
  | (k, v) :: rest => if k.same key then (k, value) :: rest else (k, v) :: putEntry key value rest

def reachEntries (number : Nat) : Build Unit := do
  let s ← get
  let .mapping _ := (← node number).content | throw .malformed
  let pairs ← flatten 0 (s.nodes.size * s.nodes.size + 1) number
  let mut entries : List (Scalar × Nat) := []
  for (key, value) in pairs do
    let .scalar k ← reach key | throw .malformed
    let _ ← reach value
    entries := putEntry k value entries
  modify fun s => { s with entries := s.entries.setIfInBounds number entries }

def reachParts (number : Nat) : Build Unit := do
  let n ← node number
  match n.tag with
  | .seq =>
    let .sequence items := n.content | throw .malformed
    for item in items do
      let _ ← reach item
  | .omap => reachPairs n
  | .pairs => reachPairs n
  | _ => reachEntries number
where
  reachPairs (n : Node) : Build Unit := do
    let .sequence items := n.content | throw .malformed
    for item in items do
      let .mapping [(key, value)] := (← node item).content | throw .malformed
      let _ ← reach key
      let _ ← reach value

/-- Reaches the parts of all collections, one level after the other. Every node is pending at most
once, so there are no more levels than nodes. -/
def reachAll : (levels : Nat) → Build Unit
  | 0 => return
  | levels + 1 => do
    let level := (← get).pending.reverse
    if level.isEmpty then return
    modify fun s => { s with pending := [] }
    for number in level do
      reachParts number
    reachAll levels

end Build

/-- The value of a node to a depth; collections below it are shown empty. A node may hold itself, so
its whole value need not be finite. -/
def Builder.view (b : Builder) : (depth : Nat) → Nat → Value
  | depth, number =>
    match b.kinds.getD number none with
    | some (.scalar s) => .scalar s
    | some .list =>
      match depth with
      | 0 => .list []
      | depth + 1 =>
        match (b.nodes.getD number default).content with
        | .sequence items => .list (items.map (b.view depth))
        | _ => .list []
    | some .mapping =>
      match depth with
      | 0 => .mapping []
      | depth + 1 =>
        .mapping ((b.entries.getD number []).map fun entry => (entry.1, b.view depth entry.2))
    | some .set => .set ((b.entries.getD number []).map Prod.fst)
    | none => .scalar .null

def viewDepth : Nat := 3

/-- The value of the only document of a stream; a stream without a document is null. -/
def load [Room] (stream : Bytes) : Except Fault Value := do
  let some characters := characters? stream | throw .malformed
  match ← compose characters with
  | (_, none) => return .scalar .null
  | (nodes, some root) =>
    let start : Builder :=
      { nodes := nodes
        kinds := Array.replicate nodes.size none
        entries := Array.replicate nodes.size [] }
    let reachRoot : Build Unit := do
      let _ ← Build.reach root
      Build.reachAll (nodes.size + 1)
    let ((), b) ← reachRoot.run start
    return b.view viewDepth root

end TlsGate.Yaml
