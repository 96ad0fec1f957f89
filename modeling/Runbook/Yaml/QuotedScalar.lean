/-
Scalars between quotes.

Between single quotes a quote is written twice and nothing else is special.
Between double quotes a backslash introduces a character by letter or by
number, or hides a line break.
-/
import Runbook.Yaml.Folding

namespace Runbook.Yaml

namespace QuotedScalar

/-- Where the reader is between the quotes. -/
inductive Mode where
  | word
  /-- After a single quote, which ends the scalar unless a second one follows. -/
  | quote
  | backslash
  /-- Inside a number of which `left` digits are to come. -/
  | number (left code : Nat)
  | gap (g : Gap)

/-- The character that a letter after a backslash stands for. -/
def letter? : Char → Option Char
  | '0' => some (Char.ofNat 0x0)
  | 'a' => some (Char.ofNat 0x7)
  | 'b' => some (Char.ofNat 0x8)
  | 't' => some '\t'
  | '\t' => some '\t'
  | 'n' => some '\n'
  | 'v' => some (Char.ofNat 0xb)
  | 'f' => some (Char.ofNat 0xc)
  | 'r' => some '\r'
  | 'e' => some (Char.ofNat 0x1b)
  | ' ' => some ' '
  | '"' => some '"'
  | '/' => some '/'
  | '\\' => some '\\'
  | 'N' => some (Char.ofNat 0x85)
  | '_' => some (Char.ofNat 0xa0)
  | 'L' => some (Char.ofNat 0x2028)
  | 'P' => some (Char.ofNat 0x2029)
  | _ => none

/-- How many digits follow a letter that introduces a number. -/
def digitCount? : Char → Option Nat
  | 'x' => some 2
  | 'u' => some 4
  | 'U' => some 8
  | _ => none

def hexValue? (c : Char) : Option Nat :=
  if '0' ≤ c ∧ c ≤ '9' then some (c.toNat - '0'.toNat)
  else if 'a' ≤ c ∧ c ≤ 'f' then some (c.toNat - 'a'.toNat + 10)
  else if 'A' ≤ c ∧ c ≤ 'F' then some (c.toNat - 'A'.toNat + 10)
  else none

/-- The character with a number, if it has one. -/
def charOf? (code : Nat) : Option Char :=
  if code.isValidChar then some (Char.ofNat code) else none

/-- What the reader does at a character. -/
inductive Move where
  /-- It goes on, in a mode and with the text so far in reverse. -/
  | on (mode : Mode) (text : List Char)
  /-- The scalar ends with the character; its text is in reverse. -/
  | ends (text : List Char)
  /-- The scalar has ended before the character. -/
  | ended
  | fault

/-- The move after a backslash and this character. -/
def escape (text : List Char) (c : Char) : Move :=
  if isBreak c then .on (.gap .afterEscapedBreak) text
  else match digitCount? c with
    | some n => .on (.number n 0) text
    | none =>
      match letter? c with
      | some d => .on .word (d :: text)
      | none => .fault

/-- The move at a digit of a number. -/
def numeral (left code : Nat) (text : List Char) (c : Char) : Move :=
  match hexValue? c with
  | none => .fault
  | some d =>
    if left ≤ 1 then
      match charOf? (16 * code + d) with
      | some c => .on .word (c :: text)
      | none => .fault
    else .on (.number (left - 1) (16 * code + d)) text

/-- The move at a character that is neither blank nor break. -/
def word (single : Bool) (text : List Char) (c : Char) : Move :=
  if single then
    if c = '\'' then .on .quote text else .on .word (c :: text)
  else if c = '"' then .ends text
  else if c = '\\' then .on .backslash text
  else .on .word (c :: text)

/-- The move at the first of the glyphs. -/
def move (single : Bool) (mode : Mode) (text : List Char) (g : Glyph) (rest : List Glyph) : Move :=
  match mode with
  | .quote => if g.char = '\'' then .on .word ('\'' :: text) else .ended
  | .backslash => escape text g.char
  | .number left code => numeral left code text g.char
  | .gap gap =>
    if isBlank g.char then .on (.gap (gap.blank g.char)) text
    else if isBreak g.char then .on (.gap (gap.newline g.char)) text
    else if atMarker (g :: rest) then .fault
    else word single (gap.join text) g.char
  | .word =>
    if isBlank g.char then .on (.gap (Gap.blank {} g.char)) text
    else if isBreak g.char then .on (.gap (Gap.newline {} g.char)) text
    else word single text g.char

/-- Reads a scalar up to its closing quote. The text so far is in reverse. -/
def scan? (single : Bool) : Mode → List Char → List Glyph → Option (String × List Glyph)
  | .quote, text, [] => some (String.ofList text.reverse, [])
  | _, _, [] => none
  | mode, text, g :: rest =>
    match move single mode text g rest with
    | .on mode text => scan? single mode text rest
    | .ends text => some (String.ofList text.reverse, rest)
    | .ended => some (String.ofList text.reverse, g :: rest)
    | .fault => none

end QuotedScalar

end Runbook.Yaml
