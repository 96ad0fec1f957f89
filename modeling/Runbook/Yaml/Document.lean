/-
The value of a YAML text.

Sequences and mappings become lists and objects; keys become texts as they
are written. Collections may be 128 deep, and aliases may be followed a
hundred times for each event of the document, which is what stops documents
that contain themselves.
-/
import Runbook.Yaml.Lexer
import Runbook.Yaml.Scalar

namespace Runbook.Yaml

namespace Node

mutual

/-- How many events a node is: one for a scalar or an alias, two for the ends
of a collection besides its parts. -/
def events : Node → Nat
  | .scalar .. => 1
  | .alias _ => 1
  | .sequence _ items => 2 + eventsOf items
  | .mapping _ entries => 2 + eventsOfEntries entries

def eventsOf : List Node → Nat
  | [] => 0
  | n :: rest => n.events + eventsOf rest

def eventsOfEntries : List (Node × Node) → Nat
  | [] => 0
  | (k, v) :: rest => k.events + v.events + eventsOfEntries rest

end

end Node

namespace Document

/-- How deep collections may be. -/
def depthLimit : Nat := 128

/-- How many aliases may be followed for each event. -/
def aliasLimit : Nat := 100

/-- A step of the evaluation: it may fail, and it counts the aliases still to be followed. -/
abbrev Evaluation := StateT Nat Option

/-- The node behind an alias; other nodes stand for themselves. -/
def follow (anchors : Anchors) (n : Node) : Evaluation Node :=
  match n with
  | .alias slot => fun left =>
    match left, anchors.node? slot with
    | left + 1, some n => some (n, left)
    | _, _ => none
  | n => pure n

/-- The text of a key. -/
def key (anchors : Anchors) (n : Node) : Evaluation String := do
  match ← follow anchors n with
  | .scalar _ _ text => pure text
  | _ => fun _ => none

/-- Whether a collection has a tag of the text's own kind, and so no value. -/
def isOwnTag (tag : Option Octets) : Bool := tag.any Scalar.isOwnTag

/-- The value of a node, given how the parts of a collection are read. Without that a
collection has none, as it would be too deep. -/
def valueOf (anchors : Anchors) (part : Option (Node → Evaluation Value)) (n : Node) :
    Evaluation Value := do
  match ← follow anchors n with
  | .scalar tag style text => fun left => (Scalar.value? tag style text).map fun v => (v, left)
  | .sequence tag items =>
    match part, isOwnTag tag with
    | some part, false => .arr <$> items.mapM part
    | _, _ => fun _ => none
  | .mapping tag entries =>
    match part, isOwnTag tag with
    | some part, false => do
      let read ← entries.mapM fun (k, v) => do
        let name ← key anchors k
        let content ← part v
        pure (name, content)
      pure (.obj (Fields.ofEntries read))
    | _, _ => fun _ => none
  | .alias _ => fun _ => none

/-- The value of a node whose collections are at most `depth` deep. -/
def value (anchors : Anchors) : (depth : Nat) → Node → Evaluation Value
  | 0 => valueOf anchors none
  | depth + 1 => valueOf anchors (some (value anchors depth))

/-- The value of a text that is one YAML document. An empty text is null. -/
def read? (s : String) : Option Value := do
  match ← Reader.document? (← tokens? s.toList) with
  | none => some .null
  | some (n, anchors) =>
    let (v, _) ← (value anchors depthLimit n).run (aliasLimit * n.events)
    some v

end Document

end Runbook.Yaml
