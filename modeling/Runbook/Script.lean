/-
Scripts: tasks to be played in order, and the target they are played on.
-/
import Runbook.Error

namespace Runbook

/-- A named sequence of steps. -/
structure Task where
  name : String
  flow : List Object
  continueOnError : Bool := false

namespace Task

def record : Decode.Record Task :=
  Task.mk <$> .required "name" Decode.text
    <*> .required "flow" (Decode.list Decode.object)
    <*> .withDefault "continueOnError" Decode.flag false

def decode : Value → Decoded Task := record.decode "Task"

def toValue (t : Task) : Value := .obj [
  ("name", .str t.name), ("flow", .arr (t.flow.map .obj)),
  ("continueOnError", .bool t.continueOnError)]

end Task

/-- The platforms a script can be for. -/
inductive TargetKind where
  | web
  | android
  | ios
  /-- Anything else, described under `config`. -/
  | generic
deriving DecidableEq

namespace TargetKind

def named : List (String × TargetKind) :=
  [("web", .web), ("android", .android), ("ios", .ios), ("generic", .generic)]

def name : TargetKind → String
  | .web => "web"
  | .android => "android"
  | .ios => "ios"
  | .generic => "generic"

def decode : Value → Decoded TargetKind := Decode.choice named

def toValue (k : TargetKind) : Value := .str k.name

end TargetKind

/-- What a script is played on, with the settings it is set up from. -/
structure Target where
  kind : TargetKind
  env : Object

namespace Target

/-- The path the script asks its results to be written to. -/
def output? (t : Target) : Option String := (Fields.get? "output" t.env).bind Value.asText?

def toValue (t : Target) : Value := .obj [("kind", t.kind.toValue), ("env", .obj t.env)]

end Target

structure Script where
  target : Option Target
  tasks : List Task

end Runbook
