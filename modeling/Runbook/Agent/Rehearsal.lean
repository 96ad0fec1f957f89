/-
Agents that follow a list of cues, for playing a script without a device.

Each operation that reaches the agent takes the next cue laid down for its
method; where there is none, or the cue gives no answer, the agent answers
in a fixed way. Methods can be left out, and then fail without a trace.
-/
import Runbook.Agent.Dispatch

namespace Runbook

/-- What an agent is to do at one operation. -/
structure Cue where
  tip : Option String := none
  hangs : Bool := false
  failure : Option String := none
  value : Option Value := none

/-- The cues of an agent, and what else there is to know of it. -/
structure Rehearsal where
  actions : List Action
  /-- The actions once the run has begun. -/
  callable : List Action
  screen : Option Screen
  /-- The cues of each method, in their order. -/
  cues : String → List Cue
  /-- The methods left out; a star stands for all but the calls of actions. -/
  omitted : List String
  /-- Whether someone listens to its tips from the start. -/
  hasListener : Bool
  report : Option String

namespace Operation

/-- The method of the calls of an action. -/
def callMethod (action : String) : String := "action:" ++ action

/-- The method an operation belongs to. -/
def method : Operation → String
  | .act .. => "aiAct"
  | .assertion .. => "aiAssert"
  | .extract kind .. => kind.key
  | .waitFor .. => "aiWaitFor"
  | .javascript _ => "javascript"
  | .report .. => "recordToReport"
  | .call action _ => callMethod action

end Operation

namespace Cue

/-- The cue that says nothing. -/
def silent : Cue := {}

/-- What an agent does at a cue. -/
def perform {α : Type} (cue : Cue) (done : Signal) (read : Value → Except String α)
    (usual : α) : Reply α where
  signals := done :: cue.tip.toList.map .tip
  outcome :=
    if cue.hangs then .never
    else
      match cue.failure, cue.value with
      | some text, _ => .failure text
      | none, some v =>
        match read v with
        | .ok a => .value a
        | .error text => .failure text
      | none, none => .value usual

end Cue

namespace Rehearsal

/-- Whether a method is there. -/
def supports (r : Rehearsal) (method : String) : Bool :=
  !(r.omitted.contains "*" || r.omitted.contains method)

/-- Whether calls of an action are there. The star does not stand for them. -/
def supportsCall (r : Rehearsal) (action : String) : Bool :=
  !r.omitted.contains (Operation.callMethod action)

/-- Whether an operation takes a cue. -/
def reaches (r : Rehearsal) : Operation → Bool
  | .call name param =>
    match Agent.hand r.callable name param with
    | .ok _ => r.supportsCall name
    | .error _ => false
  | operation => r.supports operation.method

/-- The cue for an operation, given all operations before. -/
def cue (r : Rehearsal) (before : List Operation) (operation : Operation) : Cue :=
  let taken := before.countP fun o => r.reaches o && o.method == operation.method
  ((r.cues operation.method)[taken]?).getD .silent

/-- How a method that is left out fails. -/
def unsupported {α : Type} (method : String) : Reply α :=
  .fail (method ++ " is not supported by this agent")

def readVerdict (v : Value) : Except String Verdict :=
  (Verdict.decode v).mapError DecodeError.message

/-- The answer to an operation, given its cue. -/
def answer (r : Rehearsal) (cue : Cue) : (operation : Operation) → Reply operation.Answer
  | .act prompt options => cue.perform (.performed (.act prompt options)) .ok .null
  | .assertion prompt message options =>
    cue.perform (.performed (.assertion prompt message options)) readVerdict { pass := true }
  | .extract kind prompt options =>
    cue.perform (.performed (.extract kind prompt options)) .ok (.obj [(kind.key, prompt)])
  | .waitFor prompt options =>
    cue.perform (.performed (.waitFor prompt options)) (fun _ => .ok ()) ()
  | .javascript script =>
    cue.perform (.performed (.javascript script)) .ok (.obj [("js", .str script)])
  | .report title content =>
    cue.perform (.performed (.report title content)) (fun _ => .ok ()) ()
  | .call name param =>
    Agent.callByName r.callable r.screen
      (fun a handed =>
        if r.supportsCall a.name then
          cue.perform (.performed (.call a.name handed.toValue)) .ok (.str (a.name ++ " done"))
        else unsupported (Operation.callMethod a.name))
      name param

/-- Whether an operation belongs to a method that is left out. -/
def omits (r : Rehearsal) : Operation → Bool
  | .call .. => false
  | operation => !r.supports operation.method

/-- The agent that follows the cues. -/
def agent (r : Rehearsal) : Agent where
  actions := r.actions
  respond := fun before operation =>
    if r.omits operation then unsupported operation.method
    else r.answer (r.cue before operation) operation
  destroy := fun _ =>
    if r.supports "destroy" then
      ((r.cues "destroy").head?.getD .silent).perform .closed (fun _ => .ok ()) ()
    else ⟨[], .value ()⟩
  slot :=
    if !r.supports "tip" then .fixed r.hasListener
    else if r.hasListener then .own
    else .vacant
  report := fun n => r.report.map fun path => path ++ "#" ++ toString n

end Rehearsal

end Runbook
