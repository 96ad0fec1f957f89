/-
Placeholders for environment variables in the text of a script.

A placeholder is a dollar sign, an opening brace, at least one character and
the next closing brace. `segments` cuts a text into placeholders and single
characters, leftmost first, and `expand` puts the values in; a value is not
searched for placeholders again.
-/
import Runbook.Error
import Runbook.Text.Classes

namespace Runbook

/-- The variables that are defined, with their values. -/
abbrev Environment := String → Option String

namespace Placeholder

/-- A part of a text. -/
inductive Segment where
  | literal (c : Char)
  /-- What stands between the braces. -/
  | placeholder (content : List Char)

/-- The content of a placeholder at the start of the characters, after its
opening brace, and what follows the closing one. -/
def content? (cs : List Char) : Option (List Char × List Char) :=
  match cs.takeWhile (· != '\x7d'), cs.dropWhile (· != '\x7d') with
  | c :: content, _ :: rest => some (c :: content, rest)
  | _, _ => none

theorem length_of_content? {cs content rest : List Char} (h : content? cs = some (content, rest)) :
    rest.length < cs.length := by
  have hlen := congrArg List.length (List.takeWhile_append_dropWhile (p := (· != '\x7d')) (l := cs))
  unfold content? at h
  split at h
  · rename_i c t d r ht hd
    rw [ht, hd] at hlen
    simp only [Option.some.injEq, Prod.mk.injEq] at h
    obtain ⟨-, rfl⟩ := h
    simp at hlen
    omega
  · cases h

/-- The placeholders of a text and the characters between them. -/
def segments : List Char → List Segment
  | [] => []
  | '$' :: '\x7b' :: cs =>
    match h : content? cs with
    | some (content, rest) =>
      have : rest.length < cs.length := length_of_content? h
      .placeholder content :: segments rest
    | none => .literal '$' :: segments ('\x7b' :: cs)
  | c :: cs => .literal c :: segments cs
termination_by cs => cs.length
decreasing_by
  · simp only [List.length_cons]
    omega
  · exact Nat.lt_succ_self _
  · exact Nat.lt_succ_self _

/-- The name of the variable a placeholder stands for. -/
def variableName (content : List Char) : String := String.ofList (Text.trim content)

/-- The characters a segment becomes. -/
def expandSegment (env : Environment) : Segment → Except Error (List Char)
  | .literal c => .ok [c]
  | .placeholder content =>
    match env (variableName content) with
    | some value => .ok value.toList
    | none => .error (.undefinedVariable (variableName content))

/-- A text with the values of its placeholders, or the first variable that is missing. -/
def expand (env : Environment) (text : String) : Except Error String := do
  let parts ← (segments text.toList).mapM (expandSegment env)
  .ok (String.ofList parts.flatten)

end Placeholder

end Runbook
