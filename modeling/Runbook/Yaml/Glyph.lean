/-
The characters of a YAML text, each with its place.

A line break is one glyph however it is written; line and paragraph
separators stay what they are, the other spellings become a line feed. A
text with a character that YAML does not allow has no glyphs.
-/

namespace Runbook.Yaml

/-- A character and its place. The index counts the octets before it. -/
structure Glyph where
  char : Char
  line : Nat
  column : Nat
  index : Nat

/-- The byte order mark. -/
def byteOrderMark : Char := Char.ofNat 0xfeff

/-- The line separator and the paragraph separator. -/
def isSeparator (c : Char) : Bool := c.toNat == 0x2028 || c.toNat == 0x2029

/-- Whether a glyph's character ends the line. -/
def isBreak (c : Char) : Bool := c == '\n' || isSeparator c

def isBlank (c : Char) : Bool := c == ' ' || c == '\t'

/-- Blanks, breaks and the end of the text. -/
def isBlankOrEnd : Option Char → Bool
  | none => true
  | some c => isBlank c || isBreak c

/-- The characters of directive names, anchors and tag handles. -/
def isNameChar (c : Char) : Bool := c.isAlphanum || c == '-' || c == '_'

/-- The characters a YAML text may hold. -/
def isAllowed (c : Char) : Bool :=
  let n := c.toNat
  n == 0x9 || n == 0xa || n == 0xd || (decide (0x20 ≤ n) && decide (n ≤ 0x7e)) || n == 0x85 ||
  (decide (0xa0 ≤ n) && decide (n ≤ 0xd7ff)) || (decide (0xe000 ≤ n) && decide (n ≤ 0xfffd)) ||
  decide (0x10000 ≤ n)

/-- Characters with their places, the first at the given one. -/
def place : List Char → Nat → Nat → Nat → List Glyph
  | [], _, _, _ => []
  | '\r' :: '\n' :: rest, line, column, index =>
    ⟨'\n', line, column, index⟩ :: place rest (line + 1) 0 (index + 2)
  | c :: rest, line, column, index =>
    let after := index + c.utf8Size
    if c = '\n' ∨ c = '\r' ∨ c.toNat = 0x85 then
      ⟨'\n', line, column, index⟩ :: place rest (line + 1) 0 after
    else if isSeparator c then
      ⟨c, line, column, index⟩ :: place rest (line + 1) 0 after
    else
      ⟨c, line, column, index⟩ :: place rest line (column + 1) after

/-- The glyphs of a text. -/
def glyphs? (cs : List Char) : Option (List Glyph) :=
  if cs.all isAllowed then some (place cs 0 0 0) else none

/-- The character at a distance from the start of the glyphs. -/
def peek (n : Nat) (gs : List Glyph) : Option Char := (gs[n]?).map Glyph.char

/-- The column of the first glyph. -/
def column (gs : List Glyph) : Nat :=
  match gs with
  | g :: _ => g.column
  | [] => 0

/-- Whether the glyphs begin, at the start of a line, with a document marker
of three equal characters. -/
def startsMarker (c : Char) : List Glyph → Bool
  | a :: b :: d :: rest =>
    a.column == 0 && a.char == c && b.char == c && d.char == c && isBlankOrEnd (peek 0 rest)
  | _ => false

/-- Whether the glyphs begin with either document marker. -/
def atMarker (gs : List Glyph) : Bool := startsMarker '-' gs || startsMarker '.' gs

/-- The characters of glyphs. -/
def chars (gs : List Glyph) : List Char := gs.map Glyph.char

/-- The glyphs after the blanks at their start. -/
def skipBlanks (gs : List Glyph) : List Glyph := gs.dropWhile fun g => isBlank g.char

/-- The glyphs from the next break on. -/
def skipToBreak (gs : List Glyph) : List Glyph := gs.dropWhile fun g => !isBreak g.char

/-- What is left of a line that holds only blanks and a comment, after its break. -/
def skipLineEnd? (gs : List Glyph) : Option (List Glyph) :=
  let gs := skipBlanks gs
  let gs := if peek 0 gs == some '#' then skipToBreak gs else gs
  match gs with
  | [] => some []
  | g :: rest => if isBreak g.char then some rest else none

end Runbook.Yaml
