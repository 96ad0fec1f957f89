/-
Calls of actions by name.

An agent that keeps a list of actions looks the action up by its name,
reads the parameters as the action takes them and hands them to its device.
-/
import Runbook.Agent

namespace Runbook.Agent

/-- The action with a name. Aliases are not looked at. -/
def actionNamed? (actions : List Action) (name : String) : Option Action :=
  actions.find? fun a => a.name == name

/-- The action a call is for and its parameters as the device receives them,
or the text of the failure. -/
def hand (actions : List Action) (name : String) (param : Value) :
    Except String (Action × Action.Handed) :=
  match actionNamed? actions name with
  | none => .error (Error.actionNotFound name).message
  | some a =>
    match a.hand param with
    | .error e => .error e.message
    | .ok handed => .ok (a, handed)

/-- Calls an action by name. Whatever fails before the device is reached
leaves no signal. -/
def callByName (actions : List Action) (screen : Option Screen)
    (device : Action → Action.Handed → Reply Value) (name : String) (param : Value) :
    Reply Value :=
  match hand actions name param with
  | .error text => .fail text
  | .ok (a, handed) =>
    let reply := device a handed
    { reply with outcome := handed.conclude screen reply.outcome }

end Runbook.Agent
