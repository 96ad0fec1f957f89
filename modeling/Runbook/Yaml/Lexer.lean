/-
From the glyphs of a YAML text to its tokens.

Two things make the tokens depend on more than the next glyph. Block
collections open and close with the indentation. And a scalar or a flow
collection is a key only if a colon follows it on the same line, so the key
token is put in front of it afterwards: whatever may turn out to be a key is
kept as a candidate, with its place among the tokens.
-/
import Runbook.Yaml.PlainScalar
import Runbook.Yaml.BlockScalar
import Runbook.Yaml.Tag

namespace Runbook.Yaml

/-- What may turn out to be a key. It is required to if a key is all that can
stand at its column. -/
structure Candidate where
  required : Bool
  position : Nat
  line : Nat
  column : Nat
  index : Nat

/-- The state of the lexer. `indents` are the columns of the open block
collections, innermost first; `candidates` has an entry for each open flow
collection and one for the rest. -/
structure Lexer where
  rest : List Glyph
  tokens : Array Token := #[]
  indents : List Nat := []
  candidates : List (Option Candidate) := [none]
  keyAllowed : Bool := true

namespace Lexer

def inFlow (s : Lexer) : Bool := decide (1 < s.candidates.length)

/-- One more than the column of the innermost block collection, zero outside all. -/
def leastIndent (s : Lexer) : Nat :=
  match s.indents with
  | column :: _ => column + 1
  | [] => 0

def push (s : Lexer) (t : Token) : Lexer := { s with tokens := s.tokens.push t }

/-! ## Gaps -/

/-- The glyphs after blanks, comments and breaks, and whether a key may come
next: outside flow collections a new line always admits one. Tabs count as
blanks only where no key may come. -/
def skipGap (inFlow : Bool) : (inComment keyAllowed : Bool) → List Glyph → Bool × List Glyph
  | _, keyAllowed, [] => (keyAllowed, [])
  | inComment, keyAllowed, g :: rest =>
    if isBreak g.char then skipGap inFlow false (keyAllowed || !inFlow) rest
    else if inComment then skipGap inFlow true keyAllowed rest
    else if g.char == ' ' || (g.char == '\t' && (inFlow || !keyAllowed)) ||
        (g.char == byteOrderMark && g.column == 0) then
      skipGap inFlow false keyAllowed rest
    else if g.char == '#' then skipGap inFlow true keyAllowed rest
    else (keyAllowed, g :: rest)

/-! ## Candidates -/

/-- Candidates end with their line and after 1024 octets. A required one
must not end so. -/
def expire? (g : Glyph) (c : Option Candidate) : Option (Option Candidate) :=
  match c with
  | none => some none
  | some c =>
    if c.line < g.line ∨ c.index + 1024 < g.index then
      if c.required then none else some none
    else some (some c)

/-- The innermost candidate is given up. -/
def dropCandidate? (s : Lexer) : Option Lexer :=
  match s.candidates with
  | some c :: rest => if c.required then none else some { s with candidates := none :: rest }
  | _ => some s

/-- What starts at this glyph may turn out to be a key. -/
def saveCandidate? (s : Lexer) (g : Glyph) : Option Lexer :=
  if s.keyAllowed then do
    let s ← s.dropCandidate?
    let c : Candidate := {
      required := !s.inFlow && s.leastIndent == g.column + 1
      position := s.tokens.size, line := g.line, column := g.column, index := g.index }
    some { s with candidates := some c :: s.candidates.drop 1 }
  else some s

/-! ## Indentation -/

/-- Closes the block collections beyond a column. -/
def unroll (s : Lexer) (column : Nat) : Lexer :=
  if s.inFlow then s
  else
    let closed := s.indents.takeWhile fun c => decide (column < c)
    { s with
      indents := s.indents.drop closed.length
      tokens := s.tokens ++ Array.replicate closed.length Token.blockEnd }

/-- Closes all block collections. -/
def unrollAll (s : Lexer) : Lexer :=
  if s.inFlow then s
  else { s with
    indents := []
    tokens := s.tokens ++ Array.replicate s.indents.length Token.blockEnd }

/-- Opens a block collection at a column further in, its token at a place among the tokens. -/
def roll (s : Lexer) (column position : Nat) (t : Token) : Lexer :=
  if !s.inFlow && decide (s.leastIndent ≤ column) then
    { s with
      indents := column :: s.indents
      tokens := s.tokens.insertIdxIfInBounds position t }
  else s

/-! ## One token -/

/-- A directive or a document marker: everything before it is closed. -/
def atDocumentLevel? (s : Lexer) : Option Lexer := do
  let s ← s.unrollAll.dropCandidate?
  some { s with keyAllowed := false }

def flowStart? (s : Lexer) (g : Glyph) (rest : List Glyph) (t : Token) : Option Lexer := do
  let s ← s.saveCandidate? g
  some { s.push t with rest, candidates := none :: s.candidates, keyAllowed := true }

def flowEnd? (s : Lexer) (rest : List Glyph) (t : Token) : Option Lexer := do
  let s ← s.dropCandidate?
  let candidates := if s.inFlow then s.candidates.drop 1 else s.candidates
  some { s.push t with rest, candidates, keyAllowed := false }

def flowEntry? (s : Lexer) (rest : List Glyph) : Option Lexer := do
  let s ← s.dropCandidate?
  some { s.push .flowEntry with rest, keyAllowed := true }

def blockEntry? (s : Lexer) (g : Glyph) (rest : List Glyph) : Option Lexer := do
  if !s.inFlow && !s.keyAllowed then none
  let s ← (s.roll g.column s.tokens.size .blockSequenceStart).dropCandidate?
  some { s.push .blockEntry with rest, keyAllowed := true }

def key? (s : Lexer) (g : Glyph) (rest : List Glyph) : Option Lexer := do
  if !s.inFlow && !s.keyAllowed then none
  let s ← (s.roll g.column s.tokens.size .blockMappingStart).dropCandidate?
  some { s.push .key with rest, keyAllowed := !s.inFlow }

/-- A colon: the candidate before it, if there is one, becomes a key. -/
def value? (s : Lexer) (g : Glyph) (rest : List Glyph) : Option Lexer :=
  match s.candidates with
  | some c :: outer =>
    let s := { s with
      tokens := s.tokens.insertIdxIfInBounds c.position .key, candidates := none :: outer }
    let s := s.roll c.column c.position .blockMappingStart
    some { s.push .value with rest, keyAllowed := false }
  | _ =>
    if !s.inFlow && !s.keyAllowed then none
    else
      let s := s.roll g.column s.tokens.size .blockMappingStart
      some { s.push .value with rest, keyAllowed := !s.inFlow }

/-- A token that may begin a key but admits none after it on the same line. -/
def content? (s : Lexer) (g : Glyph) (read : Option (Token × List Glyph)) : Option Lexer := do
  let s ← s.saveCandidate? g
  let (t, rest) ← read
  some { s.push t with rest, keyAllowed := false }

def plain? (s : Lexer) (g : Glyph) : Option Lexer := do
  let s ← s.saveCandidate? g
  let ((text, newLine), rest) ← PlainScalar.scan? s.inFlow s.leastIndent {} s.rest
  some { s.push (.scalar .plain text) with rest, keyAllowed := newLine }

def block? (s : Lexer) (folded : Bool) (rest : List Glyph) : Option Lexer := do
  let s ← s.dropCandidate?
  let (text, rest) ← BlockScalar.scan? folded s.leastIndent rest
  some { s.push (.scalar .quoted text) with rest, keyAllowed := true }

/-- The characters that cannot begin a plain scalar, unless what follows allows it. -/
def isIndicator (c : Char) : Bool :=
  ['-', '?', ':', ',', '[', ']', '\x7b', '\x7d', '#', '&', '*', '!', '|', '>', '\'', '"', '%', '@',
    '\x60'].contains c

/-- Whether a plain scalar can begin with this character. -/
def startsPlain (inFlow : Bool) (c : Char) (next : Option Char) : Bool :=
  (!isIndicator c && !isBlank c) || (c == '-' && !isBlankOrEnd next) ||
  (!inFlow && (c == '?' || c == ':') && !isBlankOrEnd next)

/-- The next token, where the glyphs begin with `g`. -/
def token? (s : Lexer) (g : Glyph) (rest : List Glyph) : Option Lexer :=
  let next := peek 0 rest
  let named (make : String → Token) : Option (Token × List Glyph) :=
    (anchorName? rest).map fun (name, rest) => (make name, rest)
  let quoted (single : Bool) : Option (Token × List Glyph) :=
    (QuotedScalar.scan? single .word [] rest).map fun (text, rest) => (.scalar .quoted text, rest)
  if g.column = 0 ∧ g.char = '%' then do
    let s ← s.atDocumentLevel?
    let (t, rest) ← directive? rest
    some { s.push t with rest }
  else if startsMarker '-' (g :: rest) then
    s.atDocumentLevel?.map fun s => { s.push .documentStart with rest := rest.drop 2 }
  else if startsMarker '.' (g :: rest) then
    s.atDocumentLevel?.map fun s => { s.push .documentEnd with rest := rest.drop 2 }
  else if g.char = '[' then s.flowStart? g rest .flowSequenceStart
  else if g.char = '\x7b' then s.flowStart? g rest .flowMappingStart
  else if g.char = ']' then s.flowEnd? rest .flowSequenceEnd
  else if g.char = '\x7d' then s.flowEnd? rest .flowMappingEnd
  else if g.char = ',' then s.flowEntry? rest
  else if g.char = '-' ∧ isBlankOrEnd next then s.blockEntry? g rest
  else if g.char = '?' ∧ (s.inFlow || isBlankOrEnd next) then s.key? g rest
  else if g.char = ':' ∧ (s.inFlow || isBlankOrEnd next) then s.value? g rest
  else if g.char = '*' then s.content? g (named .alias)
  else if g.char = '&' then s.content? g (named .anchor)
  else if g.char = '!' then s.content? g (tag? s.inFlow rest)
  else if g.char = '|' ∧ !s.inFlow then s.block? false rest
  else if g.char = '>' ∧ !s.inFlow then s.block? true rest
  else if g.char = '\'' then s.content? g (quoted true)
  else if g.char = '"' then s.content? g (quoted false)
  else if startsPlain s.inFlow g.char next then s.plain? g
  else none

/-- The tokens of a text. Every token takes at least one glyph, so as many
rounds as there are glyphs, and one more for the end, are enough. -/
def run? : Nat → Lexer → Option (List Token)
  | 0, _ => none
  | fuel + 1, s =>
    let (keyAllowed, rest) := skipGap s.inFlow false s.keyAllowed s.rest
    let s := { s with keyAllowed, rest }
    match rest with
    | [] => s.unrollAll.dropCandidate?.map fun s => s.tokens.toList
    | g :: more => do
      let candidates ← s.candidates.mapM (expire? g)
      let s := { s with candidates }.unroll g.column
      let s ← s.token? g more
      run? fuel s

end Lexer

/-- The tokens of a YAML text, if it has no fault that shows in them. -/
def tokens? (cs : List Char) : Option (List Token) := do
  let gs ← glyphs? cs
  Lexer.run? (gs.length + 1) { rest := gs }

end Runbook.Yaml
