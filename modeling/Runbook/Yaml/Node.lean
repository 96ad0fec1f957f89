/-
From the tokens of a YAML text to the nodes of its document.

A node is a scalar, a sequence, a mapping or an alias. An alias holds the
slot of the anchor it names. Slots are handed out as anchors come, each one
numbered by how many names are known at that point, so a name that is used
again takes the next number without adding to their count; the node that
was anchored last under a number is the one that its aliases mean.
-/
import Runbook.Fields
import Runbook.Yaml.Token

namespace Runbook.Yaml

inductive Node where
  | scalar (tag : Option Octets) (style : ScalarStyle) (text : String)
  | sequence (tag : Option Octets) (items : List Node)
  | mapping (tag : Option Octets) (entries : List (Node × Node))
  | alias (slot : Nat)
deriving Inhabited

/-- The anchors of a document so far. `owners` says which anchored node, by
order of appearance, a slot belongs to, the latest first. -/
structure Anchors where
  slots : Fields Nat := []
  owners : List (Nat × Nat) := []
  nodes : List (Nat × Node) := []

namespace Anchors

/-- A new anchor, and the number of the node it is for. -/
def announce (a : Anchors) (name : String) : Nat × Anchors :=
  let serial := a.owners.length
  let slot := a.slots.length
  (serial, { a with slots := Fields.insert name slot a.slots, owners := (slot, serial) :: a.owners })

/-- The node of an anchor, once it is complete. -/
def complete (a : Anchors) (serial : Nat) (n : Node) : Anchors :=
  { a with nodes := (serial, n) :: a.nodes }

/-- The node a slot stands for. -/
def node? (a : Anchors) (slot : Nat) : Option Node := do
  let serial ← a.owners.lookup slot
  a.nodes.lookup serial

end Anchors

/-- The state of the reader of nodes. -/
structure Reading where
  tokens : List Token
  handles : Fields Octets := []
  anchors : Anchors := {}

/-- A step of the reader; it fails where the tokens make no document. -/
abbrev Reader := StateT Reading Option

namespace Reader

def failed {α : Type} : Reader α := fun _ => none

/-- The next token, which stays. -/
def next : Reader (Option Token) := fun s => some (s.tokens.head?, s)

/-- Passes over the next token. -/
def skip : Reader Unit := fun s => some ((), { s with tokens := s.tokens.drop 1 })

/-- Passes over a token that has to come next. -/
def expect (t : Token) : Reader Unit := do
  if (← next) == some t then skip else failed

/-- Whether one of the tokens comes next. -/
def nextIsOf (ts : List Token) : Reader Bool := do
  match ← next with
  | some t => pure (ts.contains t)
  | none => pure false

/-! ## Properties -/

/-- The tag of a handle and a suffix. -/
def resolveTag (handle : String) (suffix : Octets) : Reader Octets := fun s =>
  if handle.isEmpty then some (suffix, s)
  else (Fields.get? handle s.handles).map fun replacement => (replacement ++ suffix, s)

def readTag : Reader (Option Octets) := do
  match ← next with
  | some (.tag handle suffix) =>
    skip
    some <$> resolveTag handle suffix
  | _ => pure none

def readAnchor : Reader (Option String) := do
  match ← next with
  | some (.anchor name) =>
    skip
    pure (some name)
  | _ => pure none

/-- The anchor and the tag before a node, in either order. -/
def properties : Reader (Option String × Option Octets) := do
  match ← readAnchor with
  | some name => pure (some name, ← readTag)
  | none =>
    match ← readTag with
    | some tag => pure (← readAnchor, some tag)
    | none => pure (none, none)

def emptyScalar : Node := .scalar none .plain ""

/-! ## Nodes -/

mutual

/-- Reads a node. Block collections may begin where `block` holds, and a
sequence without indentation of its own where `indentless` holds too. -/
def node : Nat → (block indentless : Bool) → Reader Node
  | 0, _, _ => failed
  | fuel + 1, block, indentless => do
    match ← next with
    | some (.alias name) =>
      skip
      fun s => (Fields.get? name s.anchors.slots).map fun slot => (.alias slot, s)
    | _ =>
      let (anchor, tag) ← properties
      match anchor with
      | none => content fuel block indentless false tag
      | some name =>
        let serial ← fun s =>
          let (serial, anchors) := s.anchors.announce name
          some (serial, { s with anchors })
        let n ← content fuel block indentless true tag
        fun s => some (n, { s with anchors := s.anchors.complete serial n })

/-- Reads what follows the properties of a node. -/
def content : Nat → (block indentless anchored : Bool) → Option Octets → Reader Node
  | 0, _, _, _, _ => failed
  | fuel + 1, block, indentless, anchored, tag => do
    match ← next, block, indentless with
    | some .blockEntry, true, true => .sequence tag <$> looseItems fuel
    | some (.scalar style text), _, _ =>
      skip
      pure (.scalar tag style text)
    | some .flowSequenceStart, _, _ =>
      skip
      .sequence tag <$> flowItems fuel true
    | some .flowMappingStart, _, _ =>
      skip
      .mapping tag <$> flowEntries fuel true
    | some .blockSequenceStart, true, _ =>
      skip
      .sequence tag <$> blockItems fuel
    | some .blockMappingStart, true, _ =>
      skip
      .mapping tag <$> blockEntries fuel
    | _, _, _ => if anchored || tag.isSome then pure (.scalar tag .plain "") else failed

/-- A node, or the empty scalar if one of the given tokens comes next. -/
def nodeUnless : Nat → (block indentless : Bool) → List Token → Reader Node
  | 0, _, _, _ => failed
  | fuel + 1, block, indentless, stops => do
    if ← nextIsOf stops then pure emptyScalar else node fuel block indentless

/-- The items of a block sequence, up to its end. -/
def blockItems : Nat → Reader (List Node)
  | 0 => failed
  | fuel + 1 => do
    match ← next with
    | some .blockEntry =>
      skip
      let n ← nodeUnless fuel true false [.blockEntry, .blockEnd]
      return n :: (← blockItems fuel)
    | some .blockEnd =>
      skip
      return []
    | _ => failed

/-- The items of a sequence at the column of the mapping around it. -/
def looseItems : Nat → Reader (List Node)
  | 0 => failed
  | fuel + 1 => do
    match ← next with
    | some .blockEntry =>
      skip
      let n ← nodeUnless fuel true false [.blockEntry, .key, .value, .blockEnd]
      return n :: (← looseItems fuel)
    | _ => return []

/-- The entries of a block mapping, up to its end. -/
def blockEntries : Nat → Reader (List (Node × Node))
  | 0 => failed
  | fuel + 1 => do
    match ← next with
    | some .key =>
      skip
      let k ← nodeUnless fuel true true [.key, .value, .blockEnd]
      let v ← valueUnless fuel true [.key, .value, .blockEnd]
      return (k, v) :: (← blockEntries fuel)
    | some .blockEnd =>
      skip
      return []
    | _ => failed

/-- The value after a key, empty if there is no colon or one of the given tokens follows it. -/
def valueUnless : Nat → (block : Bool) → List Token → Reader Node
  | 0, _, _ => failed
  | fuel + 1, block, stops => do
    match ← next with
    | some .value =>
      skip
      nodeUnless fuel block block stops
    | _ => pure emptyScalar

/-- The items of a flow sequence, up to its end. An item with a colon is a
mapping of one entry. -/
def flowItems : Nat → (first : Bool) → Reader (List Node)
  | 0, _ => failed
  | fuel + 1, first => do
    if ← nextIsOf [.flowSequenceEnd] then
      skip
      return []
    if !first then expect .flowEntry
    match ← next with
    | some .flowSequenceEnd =>
      skip
      return []
    | some .key =>
      skip
      let k ← pairKey fuel
      let v ← valueUnless fuel false [.flowEntry, .flowSequenceEnd]
      return .mapping none [(k, v)] :: (← flowItems fuel false)
    | _ =>
      let n ← node fuel false false
      return n :: (← flowItems fuel false)

/-- The key of an entry inside a flow sequence. Where it is left out, the
token in its place goes with it. -/
def pairKey : Nat → Reader Node
  | 0 => failed
  | fuel + 1 => do
    if ← nextIsOf [.value, .flowEntry, .flowSequenceEnd] then
      skip
      pure emptyScalar
    else node fuel false false

/-- The entries of a flow mapping, up to its end. A node alone is a key without value. -/
def flowEntries : Nat → (first : Bool) → Reader (List (Node × Node))
  | 0, _ => failed
  | fuel + 1, first => do
    if ← nextIsOf [.flowMappingEnd] then
      skip
      return []
    if !first then expect .flowEntry
    match ← next with
    | some .flowMappingEnd =>
      skip
      return []
    | some .key =>
      skip
      let k ← nodeUnless fuel false false [.value, .flowEntry, .flowMappingEnd]
      let v ← valueUnless fuel false [.flowEntry, .flowMappingEnd]
      return (k, v) :: (← flowEntries fuel false)
    | _ =>
      let k ← node fuel false false
      return (k, emptyScalar) :: (← flowEntries fuel false)

end

/-! ## Documents -/

/-- The directives before a document. At most one version is given, and it is
1.1 or 1.2; no handle is given twice. -/
def directives : List Token → (versionSeen : Bool) → Fields Octets →
    Option (Bool × Fields Octets × List Token)
  | .version major minor :: rest, seen, handles =>
    if seen || major != 1 || (minor != 1 && minor != 2) then none
    else directives rest true handles
  | .tagHandle handle replacement :: rest, seen, handles =>
    if Fields.contains handle handles then none
    else directives rest seen (Fields.insert handle replacement handles)
  | ts, seen, handles => some (seen, handles, ts)

/-- The handles that need no directive. -/
def standardHandles : Fields Octets :=
  [("!", Octets.ofText "!"), ("!!", Octets.ofText "tag:yaml.org,2002:")]

/-- Whether nothing but document ends is left. -/
def isOver (ts : List Token) : Bool := ts.all (· == .documentEnd)

/-- Whether a document begins here without a marker. -/
def isBare : List Token → Bool
  | .version .. :: _ | .tagHandle .. :: _ | .documentStart :: _ => false
  | _ => true

/-- What stands where a marked document has no content. -/
def endsDocument : List Token → Bool
  | [] | .version .. :: _ | .tagHandle .. :: _ | .documentStart :: _ | .documentEnd :: _ => true
  | _ => false

/-- The only document of the tokens, with its anchors. Without tokens there is
none, which is not a fault. -/
def document? (ts : List Token) : Option (Option (Node × Anchors)) := do
  if ts.isEmpty then some none
  else
    let (_, given, content) ← directives ts false []
    let handles := standardHandles.foldl
      (fun acc h => if Fields.contains h.1 acc then acc else acc ++ [h]) given
    let fuel := 4 * ts.length + 8
    let (n, s) ←
      if isBare ts then (node fuel true false).run { tokens := ts, handles }
      else
        match content with
        | .documentStart :: rest =>
          if endsDocument rest then some (emptyScalar, { tokens := rest, handles })
          else (node fuel true false).run { tokens := rest, handles }
        | _ => none
    if isOver s.tokens then some (some (n, s.anchors)) else none

end Reader

end Runbook.Yaml
