/-
Prompts: what a script writes to say what is meant.

A prompt is a plain text or an object that carries more than a text, such as
reference images.
-/
import Runbook.Error

namespace Runbook

/-- A prompt in either form. -/
inductive Prompt where
  | text (s : String)
  | structured (fields : Object)

namespace Prompt

/-- The prompt a script value stands for. Numbers are read as their texts; an
empty text and the other kinds of values are no prompts. -/
def ofValue? : Value → Option Prompt
  | .str s => if s.isEmpty then none else some (.text s)
  | .num n => some (.text n.text)
  | .obj fs => some (.structured fs)
  | _ => none

def toValue : Prompt → Value
  | .text s => .str s
  | .structured fs => .obj fs

/-- The text of the prompt. A structured prompt has it under `prompt`. -/
def asText? : Prompt → Option String
  | .text s => some s
  | .structured fs => (Fields.get? "prompt" fs).bind Value.asText?

/-- The prompt as messages show it: its text, or all of it. -/
def display (p : Prompt) : String := p.asText?.getD p.toValue.compact

/-- Equality of prompts; the order of entries does not matter. -/
def sameAs (p q : Prompt) : Bool := p.toValue.sameAs q.toValue

/-- Reads a prompt where the value is nothing else. -/
def decode : Value → Decoded Prompt
  | .str s => .ok (.text s)
  | .obj fs => .ok (.structured fs)
  | _ => .error (.noVariant "UserPrompt")

end Prompt

end Runbook
