/-
The description of a schema for tool listings, in the vocabulary of JSON
Schema.
-/
import Runbook.Schema

namespace Runbook.Schema

/-- Whether an object has to have a field of this schema. -/
def isRequired : Schema → Bool
  | .optional _ | .withDefault .. => false
  | .preprocessed inner _ | .pipe inner _ | .nullable inner => inner.isRequired
  | _ => true

/-- An annotation added to a description. -/
def annotate (key : String) (note : Value) : Value → Value
  | .obj fs => .obj (Fields.insert key note fs)
  | v => v

/-- A description that only names a type. -/
def typed (name : String) (more : Object) : Value := .obj (("type", .str name) :: more)

mutual

/-- The description of a schema. A chain is described by its first schema. -/
def describe : Schema → Value
  | .string => typed "string" []
  | .number => typed "number" []
  | .integer => typed "integer" [("minimum", .ofNat 0)]
  | .boolean => typed "boolean" []
  | .any => .obj []
  | .locator => typed "locator" []
  | .enumeration names => typed "string" [("enum", .arr (names.map .str))]
  | .array item => typed "array" [("items", item.describe)]
  | .object fields =>
    typed "object" [
      ("properties", .obj (describeFields fields [])),
      ("required", .arr (requiredNames fields))]
  | .optional inner | .preprocessed inner _ | .pipe inner _ => inner.describe
  | .nullable inner => annotate "nullable" (.bool true) inner.describe
  | .withDefault inner default => annotate "default" default inner.describe
  | .union members => .obj [("anyOf", .arr (describeAll members))]

def describeAll : List Schema → List Value
  | [] => []
  | s :: rest => s.describe :: describeAll rest

def describeFields : List Field → Object → Object
  | [], out => out
  | .mk name schema description _ :: rest, out =>
    let property := match description with
      | some text => annotate "description" (.str text) schema.describe
      | none => schema.describe
    describeFields rest (Fields.insert name property out)

def requiredNames : List Field → List Value
  | [] => []
  | .mk name schema _ _ :: rest =>
    if schema.isRequired then .str name :: requiredNames rest else requiredNames rest

end

end Runbook.Schema
