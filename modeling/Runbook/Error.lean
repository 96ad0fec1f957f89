/-
What can go wrong with a script, and what is only worth a warning.

`Error` lists the causes and `Error.message` words them. An error is
structural if nothing but the script and the action set decides it, so that
it comes before anything is asked of the agent.
-/
import Runbook.Decode

namespace Runbook

/-- The kind of a value, as parameter errors name it. -/
inductive Kind where
  | null
  | boolean
  | number
  | string
  | array
  | object
deriving DecidableEq

namespace Kind

def ofValue : Value → Kind
  | .null => .null
  | .bool _ => .boolean
  | .num _ => .number
  | .str _ => .string
  | .arr _ => .array
  | .obj _ => .object

def name : Kind → String
  | .null => "null"
  | .boolean => "boolean"
  | .number => "number"
  | .string => "string"
  | .array => "array"
  | .object => "object"

end Kind

/-- How a parameter fails its schema. -/
inductive Violation where
  | absent
  | wrongKind (wanted : String) (received : Kind)
  | unlisted (listed : List String) (received : String)
  | noMember
deriving DecidableEq

namespace Violation

def message : Violation → String
  | .absent => "Required"
  | .wrongKind wanted received => "expected " ++ wanted ++ ", received " ++ received.name
  | .unlisted listed received =>
    "expected one of " ++ Text.quotedList listed ++ ", received '" ++ received ++ "'"
  | .noMember => "no union member matched"

end Violation

/-- A parameter that fails its schema, and where it is. -/
structure ParamError where
  path : String
  violation : Violation
deriving DecidableEq

namespace ParamError

def message (e : ParamError) : String :=
  "Invalid parameter at '" ++ e.path ++ "': " ++ e.violation.message

end ParamError

/-- Why a swipe cannot be carried out. -/
inductive SwipeFault where
  | unresolved (which : String) (given : Value)
  | directionMissing
  | endMissing

namespace SwipeFault

def message : SwipeFault → String
  | .unresolved which given =>
    which ++ " must be resolved to a point, but got " ++ given.compact
  | .directionMissing => "direction is required when distance is given"
  | .endMissing => "either end or distance must be given"

end SwipeFault

/-- Why an action cannot be defined. -/
inductive ActionFault where
  | nameMissing
  | descriptionMissing (action : String)
  | callMissing (action : String)
  | aliasEmpty (action : String)
deriving DecidableEq

namespace ActionFault

def message : ActionFault → String
  | .nameMissing => "action name is required"
  | .descriptionMissing action => "description is required for action '" ++ action ++ "'"
  | .callMissing action => "call is required for action '" ++ action ++ "'"
  | .aliasEmpty action => "interface alias of action '" ++ action ++ "' must not be empty"

end ActionFault

/-- Why a document is no script. Where the file is known, the message names it. -/
inductive ScriptFault where
  | notMapping (file : Option String)
  | targetMissing (file : Option String)
  | severalTargets (file : Option String)
  | targetNotObject (file : Option String)
  | tasksMissing (file : Option String)
  | tasksNotArray (given : Value)
  | alreadyRun

namespace ScriptFault

/-- The end of a message that names the file. -/
def ofFile : Option String → String
  | none => ""
  | some file => ", failed to load " ++ file

def message : ScriptFault → String
  | .notMapping file => "yaml script must be a mapping" ++ ofFile file
  | .targetMissing file =>
    "at least one of \"target\", \"web\", \"android\", or \"ios\" properties is required in yaml script" ++
      ofFile file
  | .severalTargets file =>
    "only one of \"target\", \"web\", \"android\", or \"ios\" properties is allowed in yaml script" ++
      ofFile file
  | .targetNotObject file =>
    "property \"target/web/android/ios\" must be an object" ++ ofFile file
  | .tasksMissing file => "property \"tasks\" is required in yaml script" ++ ofFile file
  | .tasksNotArray given =>
    "property \"tasks\" must be an array in yaml script, but got " ++ given.compact
  | .alreadyRun => "script player has already run"

end ScriptFault

/-- Everything that can end the loading of a script, the resolution of a step or a task. -/
inductive Error where
  /-- A parameter that fails its schema. -/
  | validation (error : ParamError)
  /-- A step that no rule recognises. -/
  | unknownItem (item : Object)
  /-- A step that several actions recognise. -/
  | ambiguousItem (actions : List String) (item : Object)
  /-- A step without its prompt. -/
  | promptMissing (operation : String)
  | invalidSleep (given : Value)
  | invalidSwipe (fault : SwipeFault)
  | duplicateAction (key first second : String)
  | invalidAction (fault : ActionFault)
  | actionNotFound (key : String)
  /-- A failed assertion, with the text it is reported by. -/
  | assertionFailed (text : String)
  | invalidScript (fault : ScriptFault)
  /-- A placeholder for a variable that is not defined. -/
  | undefinedVariable (name : String)
  /-- A value of the wrong type. -/
  | decode (error : DecodeError)
  /-- A failure reported by the agent, by its set-up or by an action call. -/
  | agent (text : String)
  /-- A text that is not one YAML document. -/
  | yaml
  /-- A results file that could not be written. -/
  | io

namespace Error

/-- The text of an error. What lies outside the program's own words is left empty. -/
def message : Error → String
  | .validation error => error.message
  | .unknownItem item => "unknown flow item: " ++ (Value.obj item).compact
  | .ambiguousItem actions item =>
    "ambiguous flow item, it matches actions " ++ Text.quotedList actions ++ ": " ++
      (Value.obj item).compact
  | .promptMissing operation => "Invalid flow item: missing prompt for " ++ operation
  | .invalidSleep given =>
    "ms for sleep must be greater than 0, but got " ++
      (match given with
        | .str s => s
        | v => v.compact)
  | .invalidSwipe fault => "Invalid swipe gesture: " ++ fault.message
  | .duplicateAction key first second =>
    "Duplicate action key '" ++ key ++ "' registered by '" ++ first ++ "' and '" ++ second ++ "'"
  | .invalidAction fault => "Invalid action definition: " ++ fault.message
  | .actionNotFound key => "Action not found in action space: " ++ key
  | .assertionFailed text => text
  | .invalidScript fault => "Invalid script: " ++ fault.message
  | .undefinedVariable name => "Environment variable \"" ++ name ++ "\" is not defined"
  | .decode error => "JSON error: " ++ error.message
  | .agent text => text
  | .yaml => ""
  | .io => ""

/-- Whether the error is decided before any call is made. -/
def isStructural : Error → Bool
  | .validation _ | .unknownItem _ | .ambiguousItem .. | .promptMissing _
  | .invalidSleep _ | .invalidSwipe _ | .actionNotFound _ => true
  | .duplicateAction .. | .invalidAction _ | .assertionFailed _ | .invalidScript _
  | .undefinedVariable _ | .decode _ | .agent _ | .yaml | .io => false

end Error

/-- Something that does not stop the program but is reported. -/
inductive Warning where
  /-- A step names its target twice, differently. -/
  | promptConflict
  /-- A result replaces an earlier one. -/
  | resultReplaced
  | cleanupFailed
  | cleanupPanicked
  /-- A note for the report was not taken. -/
  | reportFailed
  /-- Device ids were quoted, the last of them being this one. -/
  | bareDeviceId (id : String)
deriving DecidableEq

namespace Warning

def message : Warning → String
  | .promptConflict =>
    "conflict prompt for item, maybe you put the prompt in the wrong place"
  | .resultReplaced => "result key already exists, will overwrite"
  | .cleanupFailed => "cleanup failed"
  | .cleanupPanicked => "cleanup panicked"
  | .reportFailed => "failed to record to report"
  | .bareDeviceId id =>
    "please use string-style deviceId in yaml script, for example: deviceId: \"" ++ id ++ "\""

end Warning

/-- A value with the warnings raised on the way to it. -/
structure Logged (α : Type) where
  warnings : List Warning
  value : α

namespace Logged

variable {α β : Type}

/-- A value without warnings. -/
def pure (a : α) : Logged α := ⟨[], a⟩

/-- Warnings come in the order in which they are raised. -/
def bind (x : Logged α) (f : α → Logged β) : Logged β :=
  let y := f x.value
  ⟨x.warnings ++ y.warnings, y.value⟩

instance : Monad Logged where
  pure := Logged.pure
  bind := Logged.bind

/-- A warning alone. -/
def warn (w : Warning) : Logged Unit := ⟨[w], ()⟩

end Logged

/-- A result that may be an error; warnings raised before the error are kept. -/
abbrev Checked (α : Type) := ExceptT Error Logged α

namespace Checked

/-- A result without warnings. -/
def ofExcept {α : Type} (x : Except Error α) : Checked α := ExceptT.mk (Logged.pure x)

end Checked

end Runbook
