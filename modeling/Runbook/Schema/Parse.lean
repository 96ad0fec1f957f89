/-
Checking a value against a schema.

`Schema.parse` takes a value that may be absent and gives the value as the
action will see it, with defaults filled in and undeclared keys left out, or
absence where the schema allows it, or the first violation with its path.
-/
import Runbook.Schema

namespace Runbook

/-- The outcome of a check. -/
abbrev Parsed (α : Type) := Except ParamError α

namespace Schema

/-- A value of the wrong kind. The path of the whole value has a name of its own. -/
def wrongKind {α : Type} (path wanted : String) (v : Value) : Parsed α :=
  .error ⟨if path.isEmpty then "<root>" else path, .wrongKind wanted (.ofValue v)⟩

/-- The path of a field. -/
def fieldPath (path field : String) : String :=
  if path.isEmpty then field else path ++ "." ++ field

/-- The path of an item. -/
def itemPath (path : String) (index : Nat) : String := path ++ "[" ++ toString index ++ "]"

/-- The check of a value that has to be there. -/
def present {α : Type} (path : String) (check : Value → Parsed α) : Option Value → Parsed (Option α)
  | none => .error ⟨path, .absent⟩
  | some v => (check v).map some

/-- The items of an array, each checked under its path; absence becomes `null`. -/
def parseItems (check : Option Value → String → Parsed (Option Value)) (path : String) :
    List Value → Nat → Parsed (List Value)
  | [], _ => .ok []
  | v :: rest, index => do
    let w ← check (some v) (itemPath path index)
    let ws ← parseItems check path rest (index + 1)
    .ok (Value.ofOption w :: ws)

mutual

/-- Checks a value, if there is one. -/
def parse : Schema → Option Value → String → Parsed (Option Value)
  | .optional inner, value, path =>
    match value with
    | none | some .null => .ok none
    | some v => inner.parse (some v) path
  | .nullable inner, value, path =>
    match value with
    | some .null => .ok (some .null)
    | v => inner.parse v path
  | .withDefault inner default, value, path => inner.parse (value.or (some default)) path
  | .preprocessed inner step, value, path => inner.parse (value.map step) path
  | .pipe first second, value, path => do
    let between ← first.parse value path
    second.parse between path
  | .union members, value, path => parseMembers members value path ⟨path, .noMember⟩
  | .string, value, path => present path (fun
    | .str s => .ok (.str s)
    | v => wrongKind path "string" v) value
  | .number, value, path => present path (fun
    | .num n => .ok (.num n)
    | v => wrongKind path "number" v) value
  | .integer, value, path => present path (fun
    | .num (.nat n) => .ok (.num (.nat n))
    | v => wrongKind path "non-negative integer" v) value
  | .boolean, value, path => present path (fun
    | .bool b => .ok (.bool b)
    | v => wrongKind path "boolean" v) value
  | .any, value, path => present path .ok value
  | .locator, value, path => present path (fun
    | .str s => .ok (.str s)
    | .obj fs => .ok (.obj fs)
    | v => wrongKind path "locator prompt" v) value
  | .enumeration names, value, path => present path (fun
    | .str s =>
      if names.contains s then .ok (.str s) else .error ⟨path, .unlisted names s⟩
    | v => wrongKind path "string" v) value
  | .array item, value, path => present path (fun
    | .arr vs => (parseItems (parse item) path vs 0).map .arr
    | v => wrongKind path "array" v) value
  | .object fields, value, path => present path (fun
    | .obj fs => (parseFields fields fs path []).map .obj
    | v => wrongKind path "object" v) value

/-- The first member that accepts the value; if none does, the error of the last. -/
def parseMembers : List Schema → Option Value → String → ParamError → Parsed (Option Value)
  | [], _, _, last => .error last
  | s :: rest, value, path, _ =>
    match s.parse value path with
    | .ok v => .ok v
    | .error e => parseMembers rest value path e

/-- The declared fields in declaration order; those that come out absent are left out. -/
def parseFields : List Field → Object → String → Object → Parsed Object
  | [], _, _, out => .ok out
  | .mk name schema _ _ :: rest, fs, path, out => do
    match ← schema.parse (Fields.get? name fs) (fieldPath path name) with
    | some v => parseFields rest fs path (Fields.insert name v out)
    | none => parseFields rest fs path out

end

/-! ## Lemmas -/

section

variable {value : Option Value} {path : String}

@[simp] theorem parse_optional (inner : Schema) : (optional inner).parse value path =
    match value with
    | none | some .null => .ok none
    | some v => inner.parse (some v) path := rfl

@[simp] theorem parse_nullable (inner : Schema) : (nullable inner).parse value path =
    match value with
    | some .null => .ok (some .null)
    | v => inner.parse v path := rfl

@[simp] theorem parse_withDefault (inner : Schema) (default : Value) :
    (withDefault inner default).parse value path = inner.parse (value.or (some default)) path := rfl

@[simp] theorem parse_preprocessed (inner : Schema) (step : Value → Value) :
    (preprocessed inner step).parse value path = inner.parse (value.map step) path := rfl

@[simp] theorem parse_pipe (first second : Schema) : (pipe first second).parse value path = (do
    let between ← first.parse value path
    second.parse between path) := rfl

@[simp] theorem parse_union (members : List Schema) :
    (union members).parse value path = parseMembers members value path ⟨path, .noMember⟩ := rfl

@[simp] theorem parse_string : string.parse value path = present path (fun
    | .str s => .ok (.str s)
    | v => wrongKind path "string" v) value := rfl

@[simp] theorem parse_number : number.parse value path = present path (fun
    | .num n => .ok (.num n)
    | v => wrongKind path "number" v) value := rfl

@[simp] theorem parse_integer : integer.parse value path = present path (fun
    | .num (.nat n) => .ok (.num (.nat n))
    | v => wrongKind path "non-negative integer" v) value := rfl

@[simp] theorem parse_boolean : boolean.parse value path = present path (fun
    | .bool b => .ok (.bool b)
    | v => wrongKind path "boolean" v) value := rfl

@[simp] theorem parse_any : any.parse value path = present path .ok value := rfl

@[simp] theorem parse_locator : locator.parse value path = present path (fun
    | .str s => .ok (.str s)
    | .obj fs => .ok (.obj fs)
    | v => wrongKind path "locator prompt" v) value := rfl

@[simp] theorem parse_enumeration (names : List String) :
    (enumeration names).parse value path = present path (fun
      | .str s => if names.contains s then .ok (.str s) else .error ⟨path, .unlisted names s⟩
      | v => wrongKind path "string" v) value := rfl

@[simp] theorem parse_array (item : Schema) : (array item).parse value path = present path (fun
    | .arr vs => (parseItems item.parse path vs 0).map .arr
    | v => wrongKind path "array" v) value := rfl

@[simp] theorem parse_object (fields : List Field) :
    (object fields).parse value path = present path (fun
      | .obj fs => (parseFields fields fs path []).map .obj
      | v => wrongKind path "object" v) value := rfl

@[simp] theorem parseMembers_nil (last : ParamError) :
    parseMembers [] value path last = .error last := rfl

@[simp] theorem parseMembers_cons (s : Schema) (rest : List Schema) (last : ParamError) :
    parseMembers (s :: rest) value path last =
      match s.parse value path with
      | .ok v => .ok v
      | .error e => parseMembers rest value path e := rfl

@[simp] theorem parseFields_nil (fs out : Object) : parseFields [] fs path out = .ok out := rfl

@[simp] theorem parseFields_cons (f : Field) (rest : List Field) (fs out : Object) :
    parseFields (f :: rest) fs path out = (do
      match ← f.schema.parse (Fields.get? f.name fs) (fieldPath path f.name) with
      | some v => parseFields rest fs path (Fields.insert f.name v out)
      | none => parseFields rest fs path out) := by
  cases f
  rfl

end

end Schema

end Runbook
