/-
Tags, anchors and directives: the parts of a YAML text that are no content.
-/
import Runbook.Yaml.Token
import Runbook.Yaml.QuotedScalar
import Runbook.Binary64.Decimal

namespace Runbook.Yaml

/-- The name characters at the start of the glyphs. -/
def spanName (gs : List Glyph) : List Char × List Glyph :=
  (chars (gs.takeWhile fun g => isNameChar g.char), gs.dropWhile fun g => isNameChar g.char)

/-- The characters that may follow the name of an anchor directly. -/
def mayFollowAnchor : Option Char → Bool
  | some c => isBlankOrEnd (some c) || ['?', ':', ',', ']', '\x7d', '%', '@', '\x60'].contains c
  | none => true

/-- The name of an anchor or an alias. -/
def anchorName? (gs : List Glyph) : Option (String × List Glyph) :=
  let (name, rest) := spanName gs
  if name.isEmpty || !mayFollowAnchor (peek 0 rest) then none
  else some (String.ofList name, rest)

/-! ## Tags -/

/-- The characters of a tag that stand for themselves; some of them only between angle brackets. -/
def isTagChar (verbatim : Bool) (c : Char) : Bool :=
  isNameChar c ||
  [';', '/', '?', ':', '@', '&', '=', '+', '$', '.', '!', '~', '*', '\'', '(', ')'].contains c ||
  (verbatim && [',', '[', ']'].contains c)

/-- One octet written as a percent sign and two digits. -/
def octet? (a b d : Char) : Option UInt8 :=
  if a = '%' then do
    let high ← QuotedScalar.hexValue? b
    let low ← QuotedScalar.hexValue? d
    some (UInt8.ofNat (16 * high + low))
  else none

/-- How many octets follow one that begins a character. -/
def followers? (o : UInt8) : Option Nat :=
  if o < 0x80 then some 0
  else if o < 0xc0 then none
  else if o < 0xe0 then some 1
  else if o < 0xf0 then some 2
  else if o < 0xf8 then some 3
  else none

/-- A number of octets that continue a character. -/
def moreOctets? : Nat → List Glyph → Option (Octets × List Glyph)
  | 0, gs => some ([], gs)
  | n + 1, a :: b :: d :: rest =>
    match octet? a.char b.char d.char with
    | some o =>
      if 0x80 ≤ o ∧ o < 0xc0 then
        (moreOctets? n rest).map fun (os, rest) => (o :: os, rest)
      else none
    | none => none
  | _, _ => none

/-- A character of a tag written as octets. Only their number is looked at, so
they need not make a character that exists. -/
def escapedOctets? (gs : List Glyph) : Option (Octets × List Glyph) :=
  match gs with
  | a :: b :: d :: rest => do
    let o ← octet? a.char b.char d.char
    let (os, rest) ← moreOctets? (← followers? o) rest
    some (o :: os, rest)
  | _ => none

/-- The octets of a tag at the start of the glyphs; `fuel` bounds the number of
its characters. -/
def tagOctets? (verbatim : Bool) : Nat → List Glyph → Option (Octets × List Glyph)
  | 0, gs => some ([], gs)
  | fuel + 1, g :: rest =>
    if g.char = '%' then do
      let (first, rest) ← escapedOctets? (g :: rest)
      let (os, rest) ← tagOctets? verbatim fuel rest
      some (first ++ os, rest)
    else if isTagChar verbatim g.char then do
      let (os, rest) ← tagOctets? verbatim fuel rest
      some (UInt8.ofNat g.char.toNat :: os, rest)
    else some ([], g :: rest)
  | _, [] => some ([], [])

/-- All octets of a tag at the start of the glyphs. -/
def tagText? (verbatim : Bool) (gs : List Glyph) : Option (Octets × List Glyph) :=
  tagOctets? verbatim gs.length gs

/-- A handle: an exclamation mark, or a name between two of them. The name
without the second mark is also given back, as the start of a tag. -/
def handle (gs : List Glyph) : (List Char × Bool) × List Glyph :=
  let (name, rest) := spanName gs
  match rest with
  | g :: more => if g.char = '!' then (('!' :: name ++ ['!'], true), more) else (('!' :: name, false), rest)
  | [] => (('!' :: name, false), [])

/-- Reads a tag after its exclamation mark. -/
def tag? (inFlow : Bool) (gs : List Glyph) : Option (Token × List Glyph) := do
  let (token, rest) ← match gs with
    | g :: rest =>
      if g.char = '<' then do
        let (text, rest) ← tagText? true rest
        match text, rest with
        | [], _ => none
        | _, h :: rest =>
          if h.char = '>' then some (Token.tag "" text.beforeZero, rest) else none
        | _, [] => none
      else short gs
    | [] => short gs
  if (inFlow && peek 0 rest == some ',') || isBlankOrEnd (peek 0 rest) then some (token, rest)
  else none
where
  /-- A tag that is not between angle brackets. -/
  short (gs : List Glyph) : Option (Token × List Glyph) := do
    let ((mark, isHandle), rest) := handle gs
    let (text, rest) ← tagText? false rest
    if isHandle then
      if text.isEmpty then none
      else some (.tag (String.ofList mark) text.beforeZero, rest)
    else
      let suffix := Octets.beforeZero (Octets.ofText (String.ofList (mark.drop 1)) ++ text)
      if suffix.isEmpty then some (.tag "" (Octets.ofText "!"), rest)
      else some (.tag "!" suffix, rest)

/-! ## Directives -/

/-- A number of at most nine digits. -/
def versionNumber? (gs : List Glyph) : Option (Nat × List Glyph) :=
  let digits := chars (gs.takeWhile fun g => isAsciiDigit g.char)
  if digits.isEmpty || decide (9 < digits.length) then none
  else some (digitsToNat digits, gs.drop digits.length)

def version? (gs : List Glyph) : Option (Token × List Glyph) := do
  let (major, rest) ← versionNumber? (skipBlanks gs)
  match rest with
  | g :: rest =>
    if g.char = '.' then do
      let (minor, rest) ← versionNumber? rest
      some (.version major minor, rest)
    else none
  | [] => none

def tagHandle? (gs : List Glyph) : Option (Token × List Glyph) :=
  match skipBlanks gs with
  | g :: rest =>
    if g.char = '!' then do
      let ((mark, isHandle), rest) := handle rest
      if !isHandle && mark != ['!'] then none
      match peek 0 rest with
      | some c => if isBlank c then pure () else none
      | none => none
      let (text, rest) ← tagText? true (skipBlanks rest)
      if text.isEmpty || !isBlankOrEnd (peek 0 rest) then none
      else some (.tagHandle (String.ofList mark) text.beforeZero, rest)
    else none
  | [] => none

/-- Reads a directive after its percent sign, with the rest of its line. -/
def directive? (gs : List Glyph) : Option (Token × List Glyph) := do
  let (name, rest) := spanName gs
  if name.isEmpty || !isBlankOrEnd (peek 0 rest) then none
  let (token, rest) ← match String.ofList name with
    | "YAML" => version? rest
    | "TAG" => tagHandle? rest
    | _ => none
  some (token, ← skipLineEnd? rest)

end Runbook.Yaml
