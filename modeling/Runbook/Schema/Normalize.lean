/-
Parameters as an action receives them.

Locatable fields are not validated. While the rest of the object is checked
a stand-in prompt takes the place of every locatable value that is there,
and afterwards the value itself is put back.
-/
import Runbook.Schema.Parse

namespace Runbook.Schema

/-- The text by which the stand-in is known. -/
def standInText : String := "__locator_placeholder__"

/-- What stands in for a locatable value during the check. -/
def standIn : Value := .obj [("prompt", .str standInText)]

/-- The locatable entries of an object that are there and not `null`. -/
def targets (names : List String) (fs : Object) : List (String × Value) :=
  names.filterMap fun name =>
    match Fields.get? name fs with
    | none | some .null => none
    | some v => some (name, v)

/-- The object with the stand-in for each of the given entries. -/
def substitute (entries : List (String × Value)) (fs : Object) : Object :=
  entries.foldl (fun acc e => Fields.insert e.1 standIn acc) fs

/-- The value with the given entries put back, if it is an object. -/
def restore (entries : List (String × Value)) : Value → Value
  | .obj fs => .obj (Fields.merge fs entries)
  | v => v

/-- The parameter an action with this schema receives. -/
def normalize (s : Schema) (v : Value) : Parsed Value :=
  match v, s.locatorNames with
  | .obj fs, name :: names => do
    let entries := targets (name :: names) fs
    let w ← s.parse (some (.obj (substitute entries fs))) ""
    .ok (restore entries (Value.ofOption w))
  | v, _ => (s.parse (some v) "").map Value.ofOption

end Runbook.Schema
