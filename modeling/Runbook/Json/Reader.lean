/-
Reading JSON text into values.

The text is first cut into tokens by a machine that takes one character at a
time, and the tokens are then put together by a machine that takes one token
at a time and keeps the open containers on a stack. Both are folds, so both
end. Objects keep the order of their keys; a repeated key keeps its first
place and its last value.
-/
import Runbook.Value
import Runbook.Binary64.Decimal

namespace Runbook.Json

/-! ## Tokens -/

inductive Token where
  | openArray
  | closeArray
  | openObject
  | closeObject
  | colon
  | comma
  | text (s : String)
  | word (cs : List Char)

/-- Where the cutting machine is. Collected characters are in reverse. -/
inductive Cutting where
  | between
  | inWord (cs : List Char)
  | inText (cs : List Char) (high : Option Nat)
  | inEscape (cs : List Char) (high : Option Nat)
  | inCode (cs : List Char) (high : Option Nat) (left code : Nat)

/-- The value of a hexadecimal digit. -/
def hexValue? (c : Char) : Option Nat :=
  if '0' ≤ c ∧ c ≤ '9' then some (c.toNat - '0'.toNat)
  else if 'a' ≤ c ∧ c ≤ 'f' then some (c.toNat - 'a'.toNat + 10)
  else if 'A' ≤ c ∧ c ≤ 'F' then some (c.toNat - 'A'.toNat + 10)
  else none

/-- The character after a backslash, for the escapes of one letter. -/
def unescape? : Char → Option Char
  | '"' => some '"'
  | '\\' => some '\\'
  | '/' => some '/'
  | 'b' => some (Char.ofNat 0x8)
  | 'f' => some (Char.ofNat 0xc)
  | 'n' => some '\n'
  | 'r' => some '\r'
  | 't' => some '\t'
  | _ => none

/-- The token of a character that stands for itself. -/
def mark? : Char → Option Token
  | '[' => some .openArray
  | ']' => some .closeArray
  | '\x7b' => some .openObject
  | '\x7d' => some .closeObject
  | ':' => some .colon
  | ',' => some .comma
  | _ => none

/-- A code unit joins the text: a high half waits for the low half after it,
and either half alone is refused. -/
def joinCode? (cs : List Char) (high : Option Nat) (code : Nat) : Option Cutting :=
  match high with
  | some h =>
    if 0xdc00 ≤ code ∧ code < 0xe000 then
      some (.inText (Char.ofNat (0x10000 + (h - 0xd800) * 0x400 + (code - 0xdc00)) :: cs) none)
    else none
  | none =>
    if 0xd800 ≤ code ∧ code < 0xdc00 then some (.inText cs (some code))
    else if 0xdc00 ≤ code ∧ code < 0xe000 then none
    else some (.inText (Char.ofNat code :: cs) none)

/-- A character outside texts and words. -/
def between? (c : Char) : Option (Cutting × List Token) :=
  if c = ' ' ∨ c = '\n' ∨ c = '\r' ∨ c = '\t' then some (.between, [])
  else if c = '"' then some (.inText [] none, [])
  else match mark? c with
    | some t => some (.between, [t])
    | none => some (.inWord [c], [])

/-- One step of the cutting machine: the next state and the tokens completed. -/
def cut? (s : Cutting) (c : Char) : Option (Cutting × List Token) :=
  match s with
  | .between => between? c
  | .inWord cs =>
    if c.isAlphanum || c == '+' || c == '-' || c == '.' then some (.inWord (c :: cs), [])
    else (between? c).map fun (s, ts) => (s, .word cs.reverse :: ts)
  | .inText cs high =>
    if c = '\\' then some (.inEscape cs high, [])
    else if high.isSome then none
    else if c = '"' then some (.between, [.text (String.ofList cs.reverse)])
    else if c.toNat < 0x20 then none
    else some (.inText (c :: cs) none, [])
  | .inEscape cs high =>
    if c = 'u' then some (.inCode cs high 4 0, [])
    else if high.isSome then none
    else (unescape? c).map fun d => (.inText (d :: cs) none, [])
  | .inCode cs high left code =>
    match hexValue? c with
    | none => none
    | some d =>
      if left ≤ 1 then (joinCode? cs high (16 * code + d)).map fun s => (s, [])
      else some (.inCode cs high (left - 1) (16 * code + d), [])

/-- One step on the whole: the state, and the tokens so far in reverse. -/
def cutOn? (state : Cutting × List Token) (c : Char) : Option (Cutting × List Token) :=
  (cut? state.1 c).map fun (s, ts) => (s, ts.reverse ++ state.2)

/-- The tokens of a text. -/
def tokens? (cs : List Char) : Option (List Token) := do
  match ← cs.foldlM cutOn? (.between, []) with
  | (.between, ts) => some ts.reverse
  | (.inWord w, ts) => some (.word w.reverse :: ts).reverse
  | _ => none

/-! ## Numbers -/

/-- Whether a word has the form of a JSON number: no leading zeros, and
digits on both sides of a point. -/
def isNumber (cs : List Char) : Bool :=
  let cs := match cs with
    | '-' :: rest => rest
    | _ => cs
  let whole := cs.takeWhile isAsciiDigit
  let rest := cs.dropWhile isAsciiDigit
  let wholeGood := match whole with
    | [] => false
    | ['0'] => true
    | d :: _ => d != '0'
  let (fractionGood, rest) := match rest with
    | '.' :: more => (!(more.takeWhile isAsciiDigit).isEmpty, more.dropWhile isAsciiDigit)
    | more => (true, more)
  wholeGood && fractionGood && (Decimal.readExponent? rest).isSome

/-- The integer a word writes, if it is digits with an optional minus sign.
Minus zero is not an integer. -/
def integer? (cs : List Char) : Option Int :=
  match cs with
  | '-' :: ds =>
    if ds.isEmpty || !ds.all isAsciiDigit || digitsToNat ds == 0 then none
    else some (-(digitsToNat ds : Int))
  | ds => if ds.isEmpty || !ds.all isAsciiDigit then none else some (digitsToNat ds)

/-- The number a word writes: an integer where one of the integer kinds holds
it, else the nearest real number. -/
def number? (cs : List Char) : Option Number :=
  if isNumber cs then
    match (integer? cs).bind Number.ofInt? with
    | some n => some n
    | none => ((Decimal.read? cs).bind Decimal.toBinary64?).map .real
  else none

/-- The value a word stands for. -/
def word? (cs : List Char) : Option Value :=
  match String.ofList cs with
  | "null" => some .null
  | "true" => some (.bool true)
  | "false" => some (.bool false)
  | _ => (number? cs).map .num

/-! ## Building -/

/-- A container that is still open, its contents in reverse. -/
inductive Frame where
  | array (items : List Value)
  | object (entries : List (String × Value))
  | member (entries : List (String × Value)) (key : String)

/-- What may come next. -/
inductive Expecting where
  | item (orClose : Bool)
  | key (orClose : Bool)
  | colon (key : String)
  | separator
  | nothing (read : Value)

/-- The building machine. -/
structure Building where
  stack : List Frame
  expecting : Expecting

/-- A complete value goes into the innermost open container. -/
def place (stack : List Frame) (v : Value) : Option Building :=
  match stack with
  | [] => some ⟨[], .nothing v⟩
  | .array items :: rest => some ⟨.array (v :: items) :: rest, .separator⟩
  | .member entries k :: rest => some ⟨.object ((k, v) :: entries) :: rest, .separator⟩
  | .object _ :: _ => none

/-- The innermost open container is complete. -/
def close (stack : List Frame) (t : Token) : Option Building :=
  match stack, t with
  | .array items :: rest, .closeArray => place rest (.arr items.reverse)
  | .object entries :: rest, .closeObject => place rest (.obj (Fields.ofEntries entries.reverse))
  | _, _ => none

/-- One step of the building machine. -/
def build? (b : Building) (t : Token) : Option Building :=
  match b.expecting, t with
  | .item _, .openArray => some ⟨.array [] :: b.stack, .item true⟩
  | .item _, .openObject => some ⟨.object [] :: b.stack, .key true⟩
  | .item _, .text s => place b.stack (.str s)
  | .item _, .word cs => (word? cs).bind (place b.stack)
  | .item true, t => close b.stack t
  | .key _, .text k => some ⟨b.stack, .colon k⟩
  | .key true, t => close b.stack t
  | .colon k, .colon =>
    match b.stack with
    | .object entries :: rest => some ⟨.member entries k :: rest, .item false⟩
    | _ => none
  | .separator, .comma =>
    match b.stack with
    | .array _ :: _ => some ⟨b.stack, .item false⟩
    | .object _ :: _ => some ⟨b.stack, .key false⟩
    | _ => none
  | .separator, t => close b.stack t
  | _, _ => none

/-- The value of a JSON text, if the text is one. -/
def read? (s : String) : Option Value := do
  let ts ← tokens? s.toList
  let b ← ts.foldlM build? ⟨[], .item false⟩
  match b.expecting with
  | .nothing v => some v
  | _ => none

end Runbook.Json
