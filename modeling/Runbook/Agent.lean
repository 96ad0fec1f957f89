/-
Agents: what carries out the operations of a script.

An agent is known by what it answers. Its answers may depend on everything
it was asked before, and so does nothing else: two agents that answer alike
are the same agent. While it answers it may carry the operation out, and
may tell what it is doing through its tip slot; an answer lists these
signals in their order.
-/
import Runbook.Action.Registry
import Runbook.Command
import Runbook.Script

namespace Runbook

/-- What an agent says of an assertion. -/
structure Verdict where
  pass : Bool
  thought : Option String := none
  message : Option String := none
deriving DecidableEq

namespace Verdict

def record : Decode.Record Verdict :=
  Verdict.mk <$> .required "pass" Decode.flag
    <*> .optional "thought" Decode.text
    <*> .optional "message" Decode.text

def decode : Value → Decoded Verdict := record.decode "AssertOutcome"

def toValue (v : Verdict) : Value := .obj [
  ("pass", .bool v.pass),
  ("thought", Value.ofOption (v.thought.map .str)),
  ("message", Value.ofOption (v.message.map .str))]

/-- The text a failed assertion is reported by: the agent's message, or else
the one the script gives, or else one made from the prompt. An empty text
counts as none once it is chosen. -/
def complaint (v : Verdict) (prompt : Prompt) (errorMessage : Option String) : String :=
  match v.message.or errorMessage with
  | some text => if text.isEmpty then "assertion failed: " ++ prompt.display else text
  | none => "assertion failed: " ++ prompt.display

/-- The error of a failed assertion. -/
def failure? (v : Verdict) (prompt : Prompt) (errorMessage : Option String) : Option Error :=
  if v.pass then none else some (.assertionFailed (v.complaint prompt errorMessage))

end Verdict

namespace Operation

/-- What an agent answers to an operation. -/
abbrev Answer : Operation → Type
  | .act .. | .extract .. | .javascript _ | .call .. => Value
  | .assertion .. => Verdict
  | .waitFor .. | .report .. => Unit

end Operation

/-- What an agent does while it answers. -/
inductive Signal where
  /-- It carries an operation out, with the parameters as they reach the device. -/
  | performed (operation : Operation)
  /-- It shuts down. -/
  | closed
  /-- It tells what it is doing, through its tip slot. -/
  | tip (text : String)

/-- An answer of an agent. -/
structure Reply (α : Type) where
  signals : List Signal
  outcome : Outcome α

namespace Reply

/-- A failure that comes before anything is done. -/
def fail {α : Type} (text : String) : Reply α := ⟨[], .failure text⟩

end Reply

/-- Who listens to the tips of an agent. -/
inductive TipSlot where
  /-- No player gets in. The listener the agent came with, if any, stays. -/
  | fixed (hasListener : Bool)
  | vacant
  /-- The listener the agent came with. -/
  | own
  /-- The player, and after it the listener the agent came with, if any. -/
  | player
deriving DecidableEq

/-- An agent, as a player sees it. -/
structure Agent where
  /-- What it can be called for. -/
  actions : List Action
  /-- Its answers, given all operations asked before. -/
  respond : List Operation → (operation : Operation) → Reply operation.Answer
  /-- How it shuts down, given all operations asked before. -/
  destroy : List Operation → Reply Unit
  /-- Who listens to its tips before a run. -/
  slot : TipSlot
  /-- The path of its report, the first time it is asked for and so on from one. -/
  report : Nat → Option String

/-- How a cleanup ends. -/
inductive CleanupEnd where
  | succeeded
  | failed
  | panicked
deriving DecidableEq

/-- Something to be done when a run is over. -/
structure Cleanup where
  name : String
  /-- Tips the agent gives meanwhile. -/
  tips : List String := []
  outcome : CleanupEnd

/-- What setting up for a script comes to. -/
inductive Setup where
  | failed (text : String)
  | ready (agent : Agent) (cleanups : List Cleanup)

end Runbook
