/-
Scalars that are written as indented lines.

The header says whether lines are kept or folded, what becomes of the breaks
at the end, and perhaps how far the lines are indented. Without that the
first line with text decides.
-/
import Runbook.Yaml.Glyph
import Runbook.Binary64.Decimal

namespace Runbook.Yaml

/-- What becomes of the breaks after the last line. -/
inductive Chomping where
  | strip
  | clip
  | keep

/-- A block scalar while it is read. Texts are in reverse; `indent` is zero
until it is known. -/
structure BlockScalar where
  folded : Bool
  chomping : Chomping
  indent : Nat
  text : List Char := []
  lineBreak : Option Char := none
  emptyLines : List Char := []
  /-- The last line began with a blank. -/
  wasBlank : Bool := false

namespace BlockScalar

/-- The breaks before a line that begins with the given character. A break
between two lines that begin with words is folded into a space, or dropped
if empty lines follow it. -/
def openLine (s : BlockScalar) (c : Char) : BlockScalar :=
  let blank := isBlank c
  let text := if s.folded && s.lineBreak == some '\n' && !s.wasBlank && !blank then
      if s.emptyLines.isEmpty then ' ' :: s.text else s.text
    else s.lineBreak.toList ++ s.text
  { s with text := s.emptyLines ++ text, lineBreak := none, emptyLines := [], wasBlank := blank }

/-- The text of the whole scalar. -/
def finish (s : BlockScalar) : String :=
  let text := match s.chomping with
    | .strip => s.text
    | .clip => s.lineBreak.toList ++ s.text
    | .keep => s.emptyLines ++ (s.lineBreak.toList ++ s.text)
  String.ofList text.reverse

/-- Where the reader is in a line. -/
inductive Mode where
  /-- Before the text of a line, at a column; the widest indentation so far counts
  while the indentation is not known. -/
  | margin (column widest : Nat)
  | line

/-- The indentation, once the first line with text is reached. -/
def settle (least : Nat) (s : BlockScalar) (widest : Nat) : BlockScalar :=
  if s.indent = 0 then { s with indent := max widest (max least 1) } else s

/-- Reads the lines; `least` is the least indentation that is not given. -/
def lines? (least : Nat) : BlockScalar → Mode → List Glyph → Option (String × List Glyph)
  | s, _, [] => some (s.finish, [])
  | s, .line, g :: rest =>
    if isBreak g.char then lines? least { s with lineBreak := some g.char } (.margin 0 0) rest
    else lines? least { s with text := g.char :: s.text } .line rest
  | s, .margin column widest, g :: rest =>
    let inMargin := s.indent == 0 || decide (column < s.indent)
    if inMargin && g.char == ' ' then lines? least s (.margin (column + 1) widest) rest
    else if inMargin && g.char == '\t' then none
    else if isBreak g.char then
      lines? least { s with emptyLines := g.char :: s.emptyLines } (.margin 0 (max widest column)) rest
    else
      let s := s.settle least (max widest column)
      if column = s.indent then
        let s := s.openLine g.char
        lines? least { s with text := g.char :: s.text } .line rest
      else some (s.finish, g :: rest)

/-- The chomping indicator at the start of the glyphs. -/
def chomping? : List Glyph → Option (Chomping × List Glyph)
  | g :: rest =>
    if g.char = '+' then some (.keep, rest)
    else if g.char = '-' then some (.strip, rest)
    else none
  | [] => none

/-- The indentation indicator at the start of the glyphs; zero is no indentation. -/
def indentation? : List Glyph → Option (Nat × List Glyph)
  | g :: rest => (digitValue? g.char).map fun n => (n, rest)
  | [] => none

/-- The two indicators of a header, in either order. -/
def header (gs : List Glyph) : (Chomping × Option Nat) × List Glyph :=
  match chomping? gs with
  | some (c, rest) =>
    match indentation? rest with
    | some (n, rest) => ((c, some n), rest)
    | none => ((c, none), rest)
  | none =>
    match indentation? gs with
    | some (n, rest) =>
      match chomping? rest with
      | some (c, rest) => ((c, some n), rest)
      | none => ((.clip, some n), rest)
    | none => ((.clip, none), gs)

/-- Reads a scalar after its first character. `least` is one more than the
indentation of the surrounding block. -/
def scan? (folded : Bool) (least : Nat) (gs : List Glyph) : Option (String × List Glyph) :=
  let ((chomping, given), rest) := header gs
  match given, skipLineEnd? rest with
  | some 0, _ | _, none => none
  | given, some rest =>
    let indent := match given with
      | some n => least - 1 + n
      | none => 0
    lines? least { folded, chomping, indent } (.margin 0 0) rest

end BlockScalar

end Runbook.Yaml
