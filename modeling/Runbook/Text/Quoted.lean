/-
Text between double quotes, in the two notations of the program's output.

`jsonQuoted` is JSON's: the short escapes, and four hexadecimal digits for
the other control characters. `quoted` is the notation of messages: a
backslash before `"` and `\`, letters for tab, line feed, carriage return
and the null character, and the code point between braces for every other
character that is not shown (`Text.isShown`).
-/
import Runbook.Text.Shown

namespace Runbook.Text

/-- The lower-case hexadecimal digits of a number. -/
def hexDigits (n : Nat) : List Char := Nat.toDigits 16 n

/-- How JSON text writes a character. -/
def jsonEscaped (c : Char) : List Char :=
  match c with
  | '"' => ['\\', '"']
  | '\\' => ['\\', '\\']
  | '\n' => ['\\', 'n']
  | '\r' => ['\\', 'r']
  | '\t' => ['\\', 't']
  | _ =>
    if c.toNat = 0x8 then ['\\', 'b']
    else if c.toNat = 0xc then ['\\', 'f']
    else if c.toNat < 0x10 then ['\\', 'u', '0', '0', '0'] ++ hexDigits c.toNat
    else if c.toNat < 0x20 then ['\\', 'u', '0', '0'] ++ hexDigits c.toNat
    else [c]

/-- A string as JSON text. -/
def jsonQuoted (s : String) : String :=
  String.ofList ('"' :: s.toList.flatMap jsonEscaped ++ ['"'])

/-- How a message writes a character. -/
def escaped (c : Char) : List Char :=
  match c with
  | '"' => ['\\', '"']
  | '\\' => ['\\', '\\']
  | '\n' => ['\\', 'n']
  | '\r' => ['\\', 'r']
  | '\t' => ['\\', 't']
  | _ =>
    if c.toNat = 0 then ['\\', '0']
    else if isShown c then [c]
    else ['\\', 'u', '\x7b'] ++ hexDigits c.toNat ++ ['\x7d']

/-- A string as messages quote it. -/
def quoted (s : String) : String :=
  String.ofList ('"' :: s.toList.flatMap escaped ++ ['"'])

/-- A list of strings as messages show it. -/
def quotedList (ss : List String) : String :=
  "[" ++ ", ".intercalate (ss.map quoted) ++ "]"

end Runbook.Text
