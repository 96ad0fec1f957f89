/-
The shape of action parameters.

A schema says which values are acceptable and what becomes of them. Its
leaves are the kinds of values; its wrappers allow absence, allow `null`,
supply a default, apply a function first, chain two schemas or offer
alternatives. Fields of an object may be marked locatable: they describe a
target in free form and are exempt from validation.

The function of a wrapper is any function of values. The one that is used most
turns scalars into text (`Schema.stringified`).
-/
import Runbook.Error

namespace Runbook

mutual

/-- A parameter schema. -/
inductive Schema where
  | string
  | number
  /-- A natural number. -/
  | integer
  | boolean
  /-- Any value that is there. -/
  | any
  /-- A target: a text or an object. -/
  | locator
  | enumeration (names : List String)
  | array (item : Schema)
  | object (fields : List Field)
  /-- A value that may be absent; `null` counts as absent. -/
  | optional (inner : Schema)
  /-- A value that may be `null`. -/
  | nullable (inner : Schema)
  /-- A value that stands in for an absent one. -/
  | withDefault (inner : Schema) (default : Value)
  /-- A value that is there goes through a function first. -/
  | preprocessed (inner : Schema) (step : Value → Value)
  /-- What the first accepts is handed to the second. -/
  | pipe (first second : Schema)
  /-- The first member that accepts the value decides. -/
  | union (members : List Schema)

/-- A named field of an object schema. -/
inductive Field where
  | mk (name : String) (schema : Schema) (description : Option String) (locatable : Bool)

end

namespace Field

def name : Field → String
  | .mk name _ _ _ => name

def schema : Field → Schema
  | .mk _ schema _ _ => schema

def description : Field → Option String
  | .mk _ _ description _ => description

/-- Whether the field describes a target in free form. -/
def locatable : Field → Bool
  | .mk _ _ _ locatable => locatable

/-- A field without description that is validated. -/
def plain (name : String) (schema : Schema) : Field := .mk name schema none false

/-- A field that describes a target. -/
def target (name : String) : Field := .mk name .locator none true

/-- The field with a description. -/
def describe (f : Field) (text : String) : Field := .mk f.name f.schema (some text) f.locatable

/-- The field, allowed to be absent. -/
def optional (f : Field) : Field := .mk f.name (.optional f.schema) f.description f.locatable

/-- The field, marked as describing a target. -/
def asTarget (f : Field) : Field := .mk f.name f.schema f.description true

end Field

namespace Schema

/-- A number or boolean as its text; other values as they are. -/
def stringify : Value → Value
  | .num n => .str n.text
  | .bool b => .str (if b then "true" else "false")
  | v => v

/-- Numbers and booleans are turned into their texts first. -/
abbrev stringified (inner : Schema) : Schema := .preprocessed inner stringify

mutual

/-- Whether a bare string is an acceptable form of the value: the leaf behind
the wrappers is a string or an enumeration, for every member of a union. Of a
chain the first schema decides. -/
def acceptsBareString : Schema → Bool
  | .string | .enumeration _ => true
  | .optional inner | .nullable inner | .withDefault inner _ | .preprocessed inner _
  | .pipe inner _ => inner.acceptsBareString
  | .union members => !members.isEmpty && allAcceptBareString members
  | _ => false

def allAcceptBareString : List Schema → Bool
  | [] => true
  | s :: rest => s.acceptsBareString && allAcceptBareString rest

end

/-- The fields of the object schema behind the wrappers, if there is one. -/
def objectFields? : Schema → Option (List Field)
  | .object fields => some fields
  | .optional inner | .nullable inner | .withDefault inner _ | .preprocessed inner _
  | .pipe inner _ => inner.objectFields?
  | _ => none

/-- The names of the locatable fields. -/
def locatorNames (s : Schema) : List String :=
  ((s.objectFields?.getD []).filter Field.locatable).map Field.name

end Schema

end Runbook
