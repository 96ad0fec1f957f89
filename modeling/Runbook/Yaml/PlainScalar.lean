/-
Scalars without quotes.

A plain scalar ends before a comment, a document marker, a colon that
separates, or, inside brackets, before one of their characters. Outside
brackets it also ends with the first line that is not indented enough.
-/
import Runbook.Yaml.Folding

namespace Runbook.Yaml

/-- A plain scalar while it is read: its text in reverse, and the gap after
the last word, if one has begun. -/
structure PlainScalar where
  text : List Char := []
  gap : Option Gap := none

namespace PlainScalar

/-- Brackets and commas, which separate inside brackets. -/
def isFlowMark (c : Char) : Bool :=
  c == ',' || c == '[' || c == ']' || c == '\x7b' || c == '\x7d'

/-- What a character that is no blank is to the scalar. -/
inductive Role where
  | part
  | ending
  | misplaced

/-- The role of a character, given the one after it. -/
def role (inFlow : Bool) (c : Char) (next : Option Char) : Role :=
  let flowMarkNext := match next with
    | some d => isFlowMark d || d == '?'
    | none => false
  if inFlow && c == ':' && flowMarkNext then .misplaced
  else if (c == ':' && isBlankOrEnd next) || (inFlow && isFlowMark c) then .ending
  else .part

/-- Whether the scalar ends where a gap ends, before the given glyphs. -/
def endsAt (inFlow : Bool) (indent : Nat) : List Glyph → Bool
  | [] => true
  | g :: rest =>
    (!inFlow && decide (g.column < indent)) || atMarker (g :: rest) || g.char == '#'

/-- The text of the scalar, and whether a new line has begun after it. -/
def finish (s : PlainScalar) : String × Bool :=
  (String.ofList s.text.reverse, (s.gap.map Gap.onNewLine).getD false)

/-- Reads a scalar; `indent` is the least column of its further lines. -/
def scan? (inFlow : Bool) (indent : Nat) : PlainScalar → List Glyph →
    Option ((String × Bool) × List Glyph)
  | s, [] => some (s.finish, [])
  | s, g :: rest =>
    let gap := s.gap.getD {}
    if isBlank g.char then
      if gap.onNewLine && decide (g.column < indent) && g.char == '\t' then none
      else scan? inFlow indent { s with gap := some (gap.blank g.char) } rest
    else if isBreak g.char then
      scan? inFlow indent { s with gap := some (gap.newline g.char) } rest
    else if s.gap.isSome && endsAt inFlow indent (g :: rest) then some (s.finish, g :: rest)
    else
      match role inFlow g.char (peek 0 rest) with
      | .misplaced => none
      | .ending => some (s.finish, g :: rest)
      | .part => scan? inFlow indent ⟨g.char :: gap.join s.text, none⟩ rest

end PlainScalar

end Runbook.Yaml
