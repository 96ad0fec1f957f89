/-
Playing the tasks of a script, one step after the other.

A step is worked out, carried out and its result recorded. The first step
that fails ends its task, and a task that fails ends the run unless it may
go on. A run that never comes back, or that makes the program give way,
stops where it is.
-/
import Runbook.Player
import Runbook.Step

namespace Runbook

/-- How a piece of a run ends. -/
inductive Ending (α : Type) where
  | done (a : α)
  | failed (error : Error)
  /-- It does not come back. -/
  | hung
  /-- The program gave way. -/
  | crashed

/-- What a step yields: a value that may be kept, and the failure that comes
after it is kept. -/
structure Yield where
  value : Option Value := none
  failure : Option Error := none

namespace Operation

/-- What a step yields, given the agent's answer. -/
def yield : (operation : Operation) → operation.Answer → Yield
  | .act .., v | .extract .., v | .javascript _, v | .call .., v => { value := some v }
  | .assertion prompt message _, verdict =>
    { value := some verdict.toValue, failure := verdict.failure? prompt message }
  | .waitFor .., _ | .report .., _ => {}

/-- Whether an operation that fails is only worth a warning. -/
def isOptional : Operation → Bool
  | .report .. => true
  | _ => false

/-- How a step ends, given how the agent's answer does. -/
def ending (operation : Operation) : Outcome operation.Answer → Ending Yield
  | .value a => .done (operation.yield a)
  | .failure text => if operation.isOptional then .done {} else .failed (.agent text)
  | .never => .hung
  | .crash => .crashed

/-- The warnings of a step, given how the agent's answer ends. -/
def warnings (operation : Operation) : Outcome operation.Answer → List Warning
  | .failure _ => if operation.isOptional then [.reportFailed] else []
  | .value _ | .never | .crash => []

end Operation

namespace Player

/-- Asks the agent for an operation. -/
def ask (p : Player) (agent : Agent) (operation : Operation) :
    Player × Outcome operation.Answer :=
  let reply := agent.respond p.asked operation
  let asked := { p.note [.asked operation] with asked := p.asked ++ [operation] }
  (asked.signals agent.slot reply.signals, reply.outcome)

/-- Carries a command out. A pause is over at once, as far as anyone can tell. -/
def carryOut (p : Player) (agent : Agent) : Command → Player × Ending Yield
  | .pause _ => (p, .done {})
  | .ask operation =>
    let (p, outcome) := p.ask agent operation
    (p.warn (operation.warnings outcome), operation.ending outcome)

/-- Records a value under a name, or else under the next number. -/
def recordResult (p : Player) (name : Option String) (value : Value) :
    Player × Except Error String :=
  let (results, outcome) := p.results.record name value
  ({ p.warn (p.results.warnings name) with results }, outcome)

/-- Keeps what a step yields, if it is to be kept. -/
def keep (p : Player) (step : Step) (yield : Yield) : Player × Except Error Unit :=
  match yield.value with
  | none => (p, .ok ())
  | some value =>
    if step.command.policy.keeps step.name then
      let (p, outcome) := p.recordResult step.name value
      (p, outcome.map fun _ => ())
    else (p, .ok ())

/-- How a step ends whose yield was kept, or could not be. -/
def endingOf (yield : Yield) : Except Error Unit → Ending Unit
  | .error e => .failed e
  | .ok _ =>
    match yield.failure with
    | some e => .failed e
    | none => .done ()

/-- Carries a step out and keeps what it yields. -/
def playStep (p : Player) (agent : Agent) (step : Step) : Player × Ending Unit :=
  match p.carryOut agent step.command with
  | (p, .done yield) =>
    let (p, kept) := p.keep step yield
    (p, endingOf yield kept)
  | (p, .failed e) => (p, .failed e)
  | (p, .hung) => (p, .hung)
  | (p, .crashed) => (p, .crashed)

/-- Plays one item of a flow. An item that is not understood asks nothing of
the agent. -/
def playItem (p : Player) (agent : Agent) (registry : Registry) (item : Item) :
    Player × Ending Unit :=
  let resolved := (Step.resolve registry item).run
  let p := p.warn resolved.warnings
  match resolved.value with
  | .error e => (p, .failed e)
  | .ok step => p.playStep agent step

/-- Plays the rest of a task's flow, the first item of it being step number `step`. -/
def playFlow (agent : Agent) (registry : Registry) (index : Nat) :
    (step : Nat) → List Item → Player → Player × Ending Unit
  | _, [], p => (p, .done ())
  | step, item :: rest, p =>
    let p := p.modifyTask index fun t => { t with currentStep := some step }
    match p.playItem agent registry item with
    | (p, .done _) => playFlow agent registry index (step + 1) rest p
    | stopped => stopped

/-- Asks the agent for the path of its report. -/
def askReport (p : Player) (agent : Agent) : Player :=
  { p with reports := p.reports + 1, reportFile := agent.report (p.reports + 1) }

/-- Plays the task at a place in the script, from its first step. -/
def playTask (agent : Agent) (registry : Registry) (index : Nat) (task : Task) (p : Player) :
    Player × Ending Unit :=
  let p := { p.setTask index .running none with currentTask := some index }
  match playFlow agent registry index 0 task.flow p with
  | (p, .done _) => ((p.setTask index .done none).askReport agent, .done ())
  | (p, .failed e) => ((p.setTask index .error (some e)).askReport agent, .failed e)
  | stopped => stopped

/-- Plays the rest of the tasks, the first of them being number `index`. -/
def playTasks (agent : Agent) (registry : Registry) :
    (index : Nat) → List Task → Player → Player × Ending Unit
  | _, [], p => (p, .done ())
  | index, task :: rest, p =>
    match playTask agent registry index task p with
    | (p, .done _) => playTasks agent registry (index + 1) rest p
    | (p, .failed e) =>
      if task.continueOnError then playTasks agent registry (index + 1) rest p
      else (p, .failed e)
    | stopped => stopped

end Player

end Runbook
