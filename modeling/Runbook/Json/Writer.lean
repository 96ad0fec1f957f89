/-
JSON text of values: compact, as messages show values, and indented, as the
results file holds them.
-/
import Runbook.Value
import Runbook.Text.Quoted

namespace Runbook.Value

open Text (jsonQuoted)

mutual

/-- JSON text without spaces. -/
def compact : Value → String
  | .null => "null"
  | .bool true => "true"
  | .bool false => "false"
  | .num n => n.text
  | .str s => jsonQuoted s
  | .arr vs => "[" ++ ",".intercalate (compactItems vs) ++ "]"
  | .obj fs => "\x7b" ++ ",".intercalate (compactEntries fs) ++ "\x7d"

def compactItems : List Value → List String
  | [] => []
  | v :: rest => compact v :: compactItems rest

def compactEntries : List (String × Value) → List String
  | [] => []
  | (k, v) :: rest => (jsonQuoted k ++ ":" ++ compact v) :: compactEntries rest

end

/-- The start of a line at some depth: two spaces for each level. -/
def newline (depth : Nat) : String := "\n" ++ String.ofList (List.replicate (2 * depth) ' ')

/-- The lines of a container between its brackets; an empty one has none. -/
def block (opening closing : String) (depth : Nat) (lines : List String) : String :=
  if lines.isEmpty then opening ++ closing
  else opening ++ newline (depth + 1) ++ ("," ++ newline (depth + 1)).intercalate lines ++
    newline depth ++ closing

mutual

/-- JSON text with one item a line. -/
def prettyAt : Nat → Value → String
  | depth, .arr vs => block "[" "]" depth (prettyItems (depth + 1) vs)
  | depth, .obj fs => block "\x7b" "\x7d" depth (prettyEntries (depth + 1) fs)
  | _, v => compact v

def prettyItems : Nat → List Value → List String
  | _, [] => []
  | depth, v :: rest => prettyAt depth v :: prettyItems depth rest

def prettyEntries : Nat → List (String × Value) → List String
  | _, [] => []
  | depth, (k, v) :: rest =>
    (jsonQuoted k ++ ": " ++ prettyAt depth v) :: prettyEntries depth rest

end

/-- JSON text with one item a line and two spaces of indentation a level. -/
def pretty (v : Value) : String := prettyAt 0 v

end Runbook.Value
