/-
Text that is put together from lines.

Between two words of a flow scalar there may be blanks, or breaks with
blanks around them. A single break becomes a space; of several, the first is
dropped and the others are kept. Blanks beside a break are dropped.
-/
import Runbook.Yaml.Glyph

namespace Runbook.Yaml

/-- The space since the last word, its characters in reverse. `onNewLine` holds
once a break has been seen, also an escaped one, which leaves no trace. -/
structure Gap where
  blanks : List Char := []
  onNewLine : Bool := false
  firstBreak : Option Char := none
  moreBreaks : List Char := []

namespace Gap

/-- The gap after an escaped break. -/
def afterEscapedBreak : Gap := { onNewLine := true }

/-- The gap with one more blank. -/
def blank (g : Gap) (c : Char) : Gap :=
  if g.onNewLine then g else { g with blanks := c :: g.blanks }

/-- The gap with one more break. -/
def newline (g : Gap) (c : Char) : Gap :=
  if g.onNewLine then { g with moreBreaks := c :: g.moreBreaks }
  else { blanks := [], onNewLine := true, firstBreak := some c, moreBreaks := [] }

/-- Text in reverse, with the gap joined to it. -/
def join (g : Gap) (text : List Char) : List Char :=
  if g.onNewLine then
    match g.firstBreak, g.moreBreaks with
    | some '\n', [] => ' ' :: text
    | some '\n', more => more ++ text
    | some c, more => more ++ c :: text
    | none, more => more ++ text
  else g.blanks ++ text

end Gap

end Runbook.Yaml
