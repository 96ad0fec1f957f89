/-
Locators: the description of a target element with hints for finding it.

`Locator.build` finds the prompt in one of several places, the step's own
key first, and takes the hints from the options. A step that names the
target twice, differently, is warned about. `Locator.split` does the same
and also tells which options are left over for the action itself.
-/
import Runbook.Prompt

namespace Runbook

/-- A path to the element, or whether one is to be worked out. -/
inductive PathHint where
  | path (s : String)
  | flag (b : Bool)
deriving DecidableEq

namespace PathHint

def ofValue? : Value → Option PathHint
  | .str s => some (.path s)
  | .bool b => some (.flag b)
  | _ => none

def toValue : PathHint → Value
  | .path s => .str s
  | .flag b => .bool b

def decode (v : Value) : Decoded PathHint :=
  match ofValue? v with
  | some h => .ok h
  | none => .error (.noVariant "XPath")

end PathHint

/-- A target element and how to look for it. -/
structure Locator where
  prompt : Prompt
  deepThink : Bool := false
  cacheable : Bool := true
  xpath : Option PathHint := none

namespace Locator

/-- The keys of a step that belong to its locator. -/
def keys : List String := ["prompt", "deepThink", "cacheable", "xpath"]

/-- The object that stands for the locator in parameters. -/
def toFields (l : Locator) : Object :=
  [("prompt", l.prompt.toValue), ("deepThink", .bool l.deepThink),
    ("cacheable", .bool l.cacheable)] ++
  (match l.xpath with
    | some h => [("xpath", h.toValue)]
    | none => [])

def toValue (l : Locator) : Value := .obj l.toFields

/-- The members of a locator object. -/
def record : Decode.Record Locator :=
  Locator.mk <$> .required "prompt" Prompt.decode
    <*> .withDefault "deepThink" Decode.flag false
    <*> .withDefault "cacheable" Decode.flag true
    <*> .optional "xpath" PathHint.decode

def decode : Value → Decoded Locator := record.decode "LocateParam"

/-- The prompt under a key of the options. -/
def promptAt? (key : String) (options : Object) : Option Prompt :=
  (Fields.get? key options).bind Prompt.ofValue?

/-- A boolean option; other values count as missing. -/
def flagAt (key : String) (default : Bool) (options : Object) : Bool :=
  ((Fields.get? key options).bind Value.asBool?).getD default

/-- The locator of a step, if any source has a prompt: the given one, the
option `prompt`, or the older option `locate`, in this order. -/
def build (given : Option Prompt) (options : Object) : Logged (Option Locator) := do
  let optional := promptAt? "prompt" options
  match given, optional with
  | some p, some q => if p.sameAs q then pure () else Logged.warn .promptConflict
  | _, _ => pure ()
  match (given.or optional).or (promptAt? "locate" options) with
  | none => pure none
  | some prompt =>
    pure (some {
      prompt
      deepThink := flagAt "deepThink" false options
      cacheable := flagAt "cacheable" true options
      xpath := (Fields.get? "xpath" options).bind PathHint.ofValue? })

/-- A locator and the options that are not its own. -/
structure Split where
  locator : Option Locator
  rest : Object

/-- The locator of a step, and the options that are neither excluded nor
`locate` nor used up by the locator. -/
def split (given : Option Prompt) (options : Object) (excluded : List String) : Logged Split := do
  let locator ← build given options
  let used := if locator.isSome then keys else []
  pure ⟨locator, Fields.without ("locate" :: used ++ excluded) options⟩

/-- The full form of a target given as a prompt or as an object with a
`prompt` entry and hints. -/
def canonical? (v : Value) : Logged (Option Value) := do
  let locator ← match v with
    | .obj fs =>
      if Fields.contains "prompt" fs then build none fs
      else build (some (.structured fs)) []
    | other =>
      match Prompt.ofValue? other with
      | some p => build (some p) []
      | none => pure none
  pure (locator.map toValue)

end Locator

end Runbook
