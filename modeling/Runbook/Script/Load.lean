/-
Loading a script from its text.

Bare device ids are quoted and placeholders expanded before the text is read
as YAML. A document has to name its target in one of three sections, unless
that is not to be checked, and has to list its tasks.
-/
import Runbook.Script
import Runbook.Script.DeviceId
import Runbook.Script.Placeholder
import Runbook.Yaml.Document

namespace Runbook.Script

/-- A section of a document; one without content is an empty object. -/
def section? (doc : Object) (key : String) : Option Value :=
  (Fields.get? key doc).map fun
    | .null => .obj []
    | v => v

/-- The section of a web target: `web`, or `target` if that has no content. -/
def webSection? (doc : Object) : Option Value :=
  match Fields.get? "web" doc with
  | none | some .null => section? doc "target"
  | some v => some v

/-- The platform sections of a document, in a fixed order. -/
def platforms (doc : Object) : List (TargetKind × Value) :=
  [(TargetKind.web, webSection? doc), (.android, section? doc "android"),
    (.ios, section? doc "ios")].filterMap fun (kind, env) => env.map fun v => (kind, v)

/-- Whether the platform sections are what they have to be: one, and an object. -/
def checkPlatforms (file : Option String) (present : List (TargetKind × Value)) :
    Except Error Unit :=
  match present with
  | [] => .error (.invalidScript (.targetMissing file))
  | [(_, .obj _)] => .ok ()
  | [_] => .error (.invalidScript (.targetNotObject file))
  | _ => .error (.invalidScript (.severalTargets file))

/-- The target of a document: its first platform section that is an object,
or else its `config` section. -/
def target? (doc : Object) (present : List (TargetKind × Value)) : Option Target :=
  match present.findSome? fun (kind, env) => env.asObject?.map fun fs => Target.mk kind fs with
  | some t => some t
  | none =>
    match Fields.get? "config" doc with
    | some (.obj env) => some ⟨.generic, env⟩
    | _ => none

/-- The tasks of a document. -/
def taskList (file : Option String) (doc : Object) : Except Error (List Task) :=
  match Fields.get? "tasks" doc with
  | none | some .null => .error (.invalidScript (.tasksMissing file))
  | some (.arr vs) =>
    match vs.mapM Task.decode with
    | .ok ts => .ok ts
    | .error e => .error (.decode e)
  | some v => .error (.invalidScript (.tasksNotArray v))

/-- The script of a document. -/
def ofValue (file : Option String) (anyTarget : Bool) : Value → Except Error Script
  | .obj doc => do
    let present := platforms doc
    if !anyTarget then checkPlatforms file present
    let ts ← taskList file doc
    .ok ⟨target? doc present, ts⟩
  | _ => .error (.invalidScript (.notMapping file))

/-- The value of the text of a script, after its placeholders are expanded. -/
def readText (env : Environment) (text : String) : Except Error Value := do
  let expanded ← Placeholder.expand env text
  match Yaml.Document.read? expanded with
  | some v => .ok v
  | none => .error .yaml

/-- Loads a script. `file` only says where the text is from; the target is
not checked if `anyTarget` holds. -/
def load (env : Environment) (file : Option String) (anyTarget : Bool) (text : String) :
    Checked Script := do
  let quoted ← DeviceId.quote text
  Checked.ofExcept do
    let doc ← readText env quoted
    ofValue file anyTarget doc

end Runbook.Script
