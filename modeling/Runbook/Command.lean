/-
What a step comes to: one command, ready to be carried out.

A command is a pause or one operation of the agent. It holds everything that
can be worked out without the agent. Its policy says whether its result is
kept always, only under a name, or never.
-/
import Runbook.Prompt

namespace Runbook

/-- The operations that read data off the screen, one agent call each. -/
inductive Extraction where
  | query
  | number
  | string
  | boolean
  | ask
  | locate
deriving DecidableEq

namespace Extraction

def all : List Extraction := [.query, .number, .string, .boolean, .ask, .locate]

/-- The key of a step that asks for the operation. -/
def key : Extraction → String
  | .query => "aiQuery"
  | .number => "aiNumber"
  | .string => "aiString"
  | .boolean => "aiBoolean"
  | .ask => "aiAsk"
  | .locate => "aiLocate"

def ofKey? (key : String) : Option Extraction := all.find? fun e => e.key == key

end Extraction

/-- Something an agent is asked to do. -/
inductive Operation where
  /-- Plan and act by itself. -/
  | act (prompt : String) (options : Object)
  | assertion (prompt : Prompt) (errorMessage : Option String) (options : Object)
  | extract (kind : Extraction) (prompt : Value) (options : Object)
  | waitFor (prompt : Prompt) (options : Object)
  | javascript (script : String)
  /-- Keep a note for the report. -/
  | report (title content : String)
  /-- Call an action by its name. -/
  | call (action : String) (param : Value)

/-- A step, ready to be carried out. -/
inductive Command where
  /-- Do nothing for a number of microseconds. -/
  | pause (micros : UInt64)
  | ask (operation : Operation)

/-- Whether the result of a command is kept. -/
inductive ResultPolicy where
  /-- Under the step's name, or else under the next number. -/
  | always
  /-- Only if the step has a name. -/
  | whenNamed
  | never
deriving DecidableEq

namespace ResultPolicy

/-- Whether the result of a step is kept, given the name of its result. -/
def keeps : ResultPolicy → Option String → Bool
  | .always, _ => true
  | .whenNamed, name => name.isSome
  | .never, _ => false

end ResultPolicy

def Operation.policy : Operation → ResultPolicy
  | .assertion .. | .extract .. | .javascript _ => .always
  | .act .. | .call .. => .whenNamed
  | .waitFor .. | .report .. => .never

namespace Command

def policy : Command → ResultPolicy
  | .pause _ => .never
  | .ask operation => operation.policy

/-- What the command asks of the agent. -/
def operation? : Command → Option Operation
  | .pause _ => none
  | .ask operation => some operation

end Command

end Runbook
