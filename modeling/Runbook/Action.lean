/-
Actions: what an agent can do on its device.

An action has a name, a key for scripts, a schema and a handler. A standard
action reads its parameters as typed data before it hands them to the
device; any other action hands them over as they are.
-/
import Runbook.Action.Standard
import Runbook.Schema.Normalize
import Runbook.Text.Classes

namespace Runbook

/-- How a request to the outside ends. -/
inductive Outcome (α : Type) where
  | value (a : α)
  /-- The request failed, with a text. -/
  | failure (text : String)
  /-- The request does not come back. -/
  | never
  /-- The program itself gave way. -/
  | crash

/-- Who handles the parameters of an action. -/
inductive Handler where
  | standard (a : StandardAction)
  | custom
deriving DecidableEq

/-- An action of an action space. -/
structure Action where
  name : String
  interfaceAlias : Option String
  description : String
  schema : Option Schema
  handler : Handler

namespace Action

/-- A standard action. -/
def standard (a : StandardAction) : Action :=
  ⟨a.name, a.interfaceAlias, a.description, some a.schema, .standard a⟩

/-- What an action is defined from. -/
structure Definition where
  name : String
  description : String
  interfaceAlias : Option String
  schema : Option Schema
  hasCall : Bool

/-- Whether a text holds nothing but blanks. -/
def isBlankText (s : String) : Bool := s.toList.all Text.isBlank

/-- The action of a definition. The name, the description and the call have
to be there, and the alias, if there is one, is not empty. -/
def define (d : Definition) : Except ActionFault Action :=
  if isBlankText d.name then .error .nameMissing
  else if isBlankText d.description then .error (.descriptionMissing d.name)
  else if !d.hasCall then .error (.callMissing d.name)
  else if d.interfaceAlias == some "" then .error (.aliasEmpty d.name)
  else .ok ⟨d.name, d.interfaceAlias, d.description, d.schema, .custom⟩

/-- The keys a step may use for the action, the alias first. -/
def keys (a : Action) : List String := a.interfaceAlias.toList ++ [a.name]

/-- Whether a text is enough to call the action. -/
def acceptsBareString (a : Action) : Bool :=
  match a.schema with
  | some s => s.acceptsBareString
  | none => false

/-- The parameters as the action receives them. Paths of violations begin
with the name of the action. -/
def normalize (a : Action) (param : Value) : Parsed Value :=
  match a.schema with
  | none => .ok param
  | some s =>
    match s.normalize param with
    | .ok v => .ok v
    | .error e => .error { e with path := a.name ++ "." ++ e.path }

/-- Parameters on their way to the device. -/
inductive Handed where
  | typed (p : Params)
  | raw (v : Value)

namespace Handed

/-- The parameters as the device receives them. -/
def toValue : Handed → Value
  | .typed p => p.toValue
  | .raw v => v

end Handed

/-- Reads parameters as the handler takes them. -/
def hand (a : Action) (param : Value) : Decoded Handed :=
  match a.handler with
  | .standard s => (s.decode param).map .typed
  | .custom => .ok (.raw param)

/-- What a swipe with these parameters comes to on a screen. -/
def swipeOutcome (p : SwipeParams) (screen : Screen) : Outcome Value :=
  match p.gesture with
  | .error f => .failure (Error.invalidSwipe f).message
  | .ok g =>
    match g.normalize screen with
    | .ok s => .value s.toValue
    | .error (.fault f) => .failure (Error.invalidSwipe f).message
    | .error .noScreen => .crash

/-- What a call answers, from what the device answered. A swipe on a screen
of known size answers the swipe carried out. -/
def Handed.conclude (h : Handed) (screen : Option Screen) (device : Outcome Value) :
    Outcome Value :=
  match h, screen, device with
  | .typed (.swipe p), some screen, .value _ => swipeOutcome p screen
  | _, _, device => device

/-- Calls the action. Parameters of the wrong type fail before the device is asked. -/
def call (a : Action) (device : Value → Outcome Value) (screen : Option Screen) (param : Value) :
    Outcome Value :=
  match a.hand param with
  | .error e => .failure e.message
  | .ok h => h.conclude screen (device h.toValue)

end Action

end Runbook
