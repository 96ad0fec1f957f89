/-
The state of a player: one script, the agent it is played on, and how far
it has come.

`Player.trace` lists what happened outside the player, in order. Nothing
the player does depends on it.
-/
import Runbook.Agent
import Runbook.Config
import Runbook.Results

namespace Runbook

/-- How far a task or a player has come. -/
inductive Status where
  | init
  | running
  | done
  | error
deriving DecidableEq

namespace Status

def name : Status → String
  | .init => "init"
  | .running => "running"
  | .done => "done"
  | .error => "error"

end Status

/-- A task and how far it has come. -/
structure TaskState where
  task : Task
  status : Status := .init
  /-- The step being played, or the last one played. -/
  currentStep : Option Nat := none
  error : Option Error := none

namespace TaskState

/-- What an observer is told of the task at a place in the script. -/
def toValue (index : Nat) (t : TaskState) : Value := .obj (
  [("index", .ofNat index), ("name", .str t.task.name), ("flow", .arr (t.task.flow.map .obj)),
    ("continueOnError", .bool t.task.continueOnError), ("status", .str t.status.name),
    ("currentStep", Value.ofOption (t.currentStep.map .ofNat)),
    ("totalSteps", .ofNat t.task.flow.length)] ++
  t.error.toList.map fun e => ("error", .str e.message))

end TaskState

/-- Something that happens outside the player. -/
inductive Event where
  /-- The agent is set up. -/
  | setup (target : Option Target)
  /-- The agent is asked for an operation. -/
  | asked (operation : Operation)
  /-- The agent carries an operation out. -/
  | performed (operation : Operation)
  /-- The agent gives a tip to the player. -/
  | tipped (text : String)
  /-- The agent's own listener receives a tip. -/
  | heard (text : String)
  /-- The observer is told that a task has changed, all tasks being as listed. -/
  | notified (index : Nat) (tasks : List TaskState)
  /-- A cleanup begins. -/
  | cleanup (name : String)
  /-- The agent is told to shut down. -/
  | destroyed
  /-- The agent shuts down. -/
  | closed

/-- A player of one script. -/
structure Player where
  script : Script
  destination : Destination
  setup : Setup
  /-- Whether the agent has been set up, or this was tried. -/
  isSetUp : Bool := false
  status : Status := .init
  currentTask : Option Nat := none
  tasks : List TaskState
  results : Results
  setupError : Option Error := none
  /-- The agent of the last run, until it is destroyed. -/
  held : Option Agent := none
  /-- The last tip of a run in progress. -/
  tip : Option String := none
  reportFile : Option String := none
  /-- All operations the agent was asked for. -/
  asked : List Operation := []
  /-- How often the agent was asked for its report. -/
  reports : Nat := 0
  /-- Who listens to the agent's tips. -/
  slot : TipSlot
  trace : List Event := []
  warnings : List Warning := []

namespace Player

/-- Who listens to the tips of an agent that is not yet set up. -/
def firstSlot : Setup → TipSlot
  | .failed _ => .fixed false
  | .ready agent _ => agent.slot

/-- A player that has not begun. `takes` says which writes of the results succeed. -/
def new (script : Script) (config : Config) (path : Option String) (setup : Setup)
    (takes : Nat → Bool) : Player where
  script := script
  destination := Destination.choose config (script.target.bind Target.output?) path
  setup := setup
  tasks := script.tasks.map fun task => { task }
  results := { sink := if config.persist then .file takes else .memory }
  slot := firstSlot setup

/-- The player after some events. -/
def note (p : Player) (events : List Event) : Player := { p with trace := p.trace ++ events }

/-- The player after some warnings. -/
def warn (p : Player) (warnings : List Warning) : Player :=
  { p with warnings := p.warnings ++ warnings }

/-- The player after a change to one of its tasks. -/
def modifyTask (p : Player) (index : Nat) (change : TaskState → TaskState) : Player :=
  { p with tasks := p.tasks.modify index change }

/-- Changes the status of a task and tells the observer. -/
def setTask (p : Player) (index : Nat) (status : Status) (error : Option Error) : Player :=
  let p := p.modifyTask index fun t => { t with status, error := error.or t.error }
  p.note [.notified index p.tasks]

/-! ## Tips -/

/-- The events of a tip that reaches the agent's own listener, if it has one. -/
def ownListener (slot : TipSlot) (text : String) : List Event :=
  match slot with
  | .own | .fixed true => [.heard text]
  | .vacant | .player | .fixed false => []

/-- A tip of the agent, given who listened before the run. The player keeps the
last one while it is running, and hands each on to the agent's own listener. -/
def emit (p : Player) (before : TipSlot) (text : String) : Player :=
  match p.slot with
  | .player =>
    let p := if p.status = .running then { p with tip := some text } else p
    p.note (.tipped text :: ownListener before text)
  | slot => p.note (ownListener slot text)

/-- What the agent does while it answers. -/
def signal (p : Player) (before : TipSlot) : Signal → Player
  | .performed operation => p.note [.performed operation]
  | .closed => p.note [.closed]
  | .tip text => p.emit before text

/-- All that the agent does while it answers. -/
def signals (p : Player) (before : TipSlot) (ss : List Signal) : Player :=
  ss.foldl (fun p s => p.signal before s) p

end Player

end Runbook
