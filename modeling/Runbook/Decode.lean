/-
Reading values as typed data.

A record is read from an object, or from an array that lists its members in
declaration order. `Record` describes one: what its members must satisfy and
how the typed record is put together from them. Reading an object checks the
members in the order in which the object lists them and reports the first
bad one, then the first missing one; reading an array checks in declaration
order. Members that are not declared are ignored.
-/
import Runbook.Json.Writer

namespace Runbook

/-- What a value of the wrong type is said to be. -/
inductive Received where
  | null
  | bool (b : Bool)
  | integer (i : Int)
  | real (x : Binary64)
  | text (s : String)
  | sequence
  | map

namespace Received

/-- How an error describes a value. -/
def ofValue : Value → Received
  | .null => .null
  | .bool b => .bool b
  | .num (.real x) => .real x
  | .num (.nat n) => .integer n.toNat
  | .num (.negSucc n) => .integer (Int.negSucc n)
  | .str s => .text s
  | .arr _ => .sequence
  | .obj _ => .map

def describe : Received → String
  | .null => "null"
  | .bool b => "boolean `" ++ (if b then "true" else "false") ++ "`"
  | .integer i => "integer `" ++ toString i ++ "`"
  | .real x => "floating point `" ++ x.text ++ "`"
  | .text s => "string " ++ Text.quoted s
  | .sequence => "sequence"
  | .map => "map"

end Received

/-- Why a value is not of the wanted type. -/
inductive DecodeError where
  | missingField (name : String)
  | invalidType (received : Received) (wanted : String)
  | invalidValue (received : Received) (wanted : String)
  | unknownVariant (name : String) (known : List String)
  | noVariant (type : String)
  | invalidLength (length : Nat) (wanted : String)

namespace DecodeError

/-- The known variants of an enumeration, as a message lists them. -/
def listVariants : List String → String
  | [] => "there are no variants"
  | [a] => "expected `" ++ a ++ "`"
  | [a, b] => "expected `" ++ a ++ "` or `" ++ b ++ "`"
  | names => "expected one of " ++ ", ".intercalate (names.map fun n => "`" ++ n ++ "`")

/-- The text of the error. -/
def message : DecodeError → String
  | .missingField name => "missing field `" ++ name ++ "`"
  | .invalidType received wanted =>
    "invalid type: " ++ received.describe ++ ", expected " ++ wanted
  | .invalidValue received wanted =>
    "invalid value: " ++ received.describe ++ ", expected " ++ wanted
  | .unknownVariant name known =>
    "unknown variant `" ++ name ++ "`, " ++ listVariants known
  | .noVariant type => "data did not match any variant of untagged enum " ++ type
  | .invalidLength length wanted =>
    "invalid length " ++ toString length ++ ", expected " ++ wanted

end DecodeError

/-- The outcome of reading a value. -/
abbrev Decoded (α : Type) := Except DecodeError α

namespace Decode

/-! ## Plain types -/

/-- The error of a value of the wrong type. -/
def mismatch {α : Type} (v : Value) (wanted : String) : Decoded α :=
  .error (.invalidType (.ofValue v) wanted)

/-- Any value. -/
def any (v : Value) : Decoded Value := .ok v

def text : Value → Decoded String
  | .str s => .ok s
  | v => mismatch v "a string"

/-- A path is a text. -/
def path : Value → Decoded String
  | .str s => .ok s
  | v => mismatch v "path string"

def flag : Value → Decoded Bool
  | .bool b => .ok b
  | v => mismatch v "a boolean"

/-- A real number; integers are rounded to the nearest one. -/
def real : Value → Decoded Binary64
  | .num n => .ok n.toBinary64
  | v => mismatch v "f64"

/-- A natural number of 64 bits. -/
def natural64 : Value → Decoded UInt64
  | .num (.nat n) => .ok n
  | .num (.negSucc n) => .error (.invalidValue (.integer (Int.negSucc n)) "u64")
  | v => mismatch v "u64"

/-- A natural number of 32 bits. -/
def natural32 : Value → Decoded UInt32
  | .num (.nat n) =>
    if n.toNat < 0x100000000 then .ok (UInt32.ofNat n.toNat)
    else .error (.invalidValue (.integer n.toNat) "u32")
  | .num (.negSucc n) => .error (.invalidValue (.integer (Int.negSucc n)) "u32")
  | v => mismatch v "u32"

def object : Value → Decoded Object
  | .obj fs => .ok fs
  | v => mismatch v "a map"

/-- A list whose items all read. -/
def list {α : Type} (item : Value → Decoded α) : Value → Decoded (List α)
  | .arr vs => vs.mapM item
  | v => mismatch v "a sequence"

/-- A value that may be `null`. -/
def nullable {α : Type} (inner : Value → Decoded α) : Value → Decoded (Option α)
  | .null => .ok none
  | v => (inner v).map some

/-- One of a fixed list of names: a text, or an object whose only key is the
name and whose value is `null`. -/
def choice {α : Type} (names : List (String × α)) (v : Value) : Decoded α :=
  let find (name : String) : Decoded α :=
    match Fields.get? name names with
    | some a => .ok a
    | none => .error (.unknownVariant name (Fields.keys names))
  match v with
  | .str s => find s
  | .obj [(name, content)] => do
    let a ← find name
    match content with
    | .null => .ok a
    | other => mismatch other "unit"
  | .obj _ => .error (.invalidValue .map "map with a single key")
  | v => mismatch v "string or map"

/-! ## Records -/

/-- A declared member: what its value must satisfy, and whether it may be missing. -/
structure Member where
  name : String
  check : Value → Decoded Unit
  required : Bool

/-- The description of a record type: its members in declaration order, and
the record they make. -/
structure Record (α : Type) where
  members : List Member
  make : (String → Option Value) → Decoded α

namespace Record

variable {α β : Type}

/-- A record without members. -/
def pure (a : α) : Record α := ⟨[], fun _ => .ok a⟩

/-- A member that has to be there. -/
def required (name : String) (read : Value → Decoded α) : Record α where
  members := [⟨name, fun v => (read v).map fun _ => (), true⟩]
  make := fun entry => match entry name with
    | some v => read v
    | none => .error (.missingField name)

/-- A member with a value of its own when it is missing. -/
def withDefault (name : String) (read : Value → Decoded α) (default : α) : Record α where
  members := [⟨name, fun v => (read v).map fun _ => (), false⟩]
  make := fun entry => match entry name with
    | some v => read v
    | none => .ok default

/-- A member that may be missing or `null`. -/
def optional (name : String) (read : Value → Decoded α) : Record (Option α) :=
  withDefault name (nullable read) none

/-- The members of both descriptions, the first applied to the second. -/
def seq (f : Record (α → β)) (a : Record α) : Record β where
  members := f.members ++ a.members
  make := fun entry => do
    let g ← f.make entry
    let x ← a.make entry
    .ok (g x)

instance : Applicative Record where
  pure := Record.pure
  seq f a := Record.seq f (a ())

/-- How many members a record has, in words. -/
def elements (n : Nat) : String := if n = 1 then "1 element" else toString n ++ " elements"

/-- The checks of the entries of an object, in their order. -/
def checkEntries (members : List Member) : Object → Decoded Unit
  | [] => .ok ()
  | (key, v) :: rest => do
    match members.find? (·.name == key) with
    | some m => m.check v
    | none => .ok ()
    checkEntries members rest

/-- The checks of an object, in its own order, then of the members it lacks. -/
def checkFields (members : List Member) (fs : Object) : Decoded Unit := do
  checkEntries members fs
  match members.find? fun m => m.required && !Fields.contains m.name fs with
  | some m => .error (.missingField m.name)
  | none => .ok ()

/-- The checks of values against the members in their places. -/
def checkInOrder : List Member → List Value → Decoded Unit
  | m :: ms, v :: vs => do
    m.check v
    checkInOrder ms vs
  | _, _ => .ok ()

/-- The checks of an array, in declaration order, then of its length. -/
def checkItems (type : String) (members : List Member) (vs : List Value) : Decoded Unit := do
  checkInOrder members vs
  match (members.drop vs.length).findIdx? (·.required) with
  | some i =>
    .error (.invalidLength (vs.length + i)
      ("struct " ++ type ++ " with " ++ elements members.length))
  | none =>
    if members.length < vs.length then
      .error (.invalidLength vs.length "fewer elements in array")
    else .ok ()

/-- Reads a record of the named type. -/
def decode (type : String) (r : Record α) : Value → Decoded α
  | .obj fs => do
    checkFields r.members fs
    r.make fun name => Fields.get? name fs
  | .arr vs => do
    checkItems type r.members vs
    r.make fun name => Fields.get? name ((r.members.map (·.name)).zip vs)
  | v => mismatch v ("struct " ++ type)

end Record

end Decode

end Runbook
