/-
Running a script: setting the agent up, playing the tasks and cleaning up.

The agent is set up once in the life of a player; a later run fails at that
point. Cleanups cannot change how a run ends. The last thing to be done is
to give the tip slot back to whoever listened before.
-/
import Runbook.Player.Play

namespace Runbook.Player

/-- The player as the listener of an agent's tips. -/
def listening : TipSlot → TipSlot
  | .fixed hasListener => .fixed hasListener
  | .vacant | .own | .player => .player

/-- An agent that is ready to be played on. -/
structure Ready where
  agent : Agent
  registry : Registry
  cleanups : List Cleanup

/-- Sets the agent up and begins to listen to its tips. -/
def setUp (p : Player) : Player × Except Error Ready :=
  if p.isSetUp then (p, .error (.invalidScript .alreadyRun))
  else
    let p := { p.note [.setup p.script.target] with isSetUp := true }
    match p.setup with
    | .failed text => (p, .error (.agent text))
    | .ready agent cleanups =>
      match Registry.build agent.actions with
      | .error e => (p, .error e)
      | .ok registry =>
        ({ p with held := some agent, slot := listening agent.slot },
          .ok ⟨agent, registry, cleanups⟩)

/-- The warnings of a cleanup. -/
def cleanupWarnings : CleanupEnd → List Warning
  | .succeeded => []
  | .failed => [.cleanupFailed]
  | .panicked => [.cleanupPanicked]

/-- Cleans one thing up. -/
def cleanUp (p : Player) (agent : Agent) (c : Cleanup) : Player :=
  let p := c.tips.foldl (fun p text => p.emit agent.slot text) (p.note [.cleanup c.name])
  p.warn (cleanupWarnings c.outcome)

/-- Ends a run: the player takes its final status and forgets the tip, then
everything is cleaned up and the tip slot given back. -/
def finish (p : Player) (ready : Ready) (status : Status) : Player :=
  let p := { p with status, tip := none }
  let p := ready.cleanups.foldl (fun p c => p.cleanUp ready.agent c) p
  { p with slot := ready.agent.slot }

/-- How a run ends, for its caller. -/
inductive RunEnd where
  | finished (status : Status)
  | hung
  | crashed
deriving DecidableEq

/-- Plays the whole script. -/
def run (p : Player) : Player × RunEnd :=
  match { p with status := .running }.setUp with
  | (p, .error e) => ({ p with setupError := some e, status := .error }, .finished .error)
  | (p, .ok ready) =>
    match playTasks ready.agent ready.registry 0 p.script.tasks p with
    | (p, .done _) => (p.finish ready .done, .finished .done)
    | (p, .failed _) => (p.finish ready .error, .finished .error)
    | (p, .hung) => (p, .hung)
    | (p, .crashed) => (p, .crashed)

/-- Plays the script a number of times, and how each of them ends. -/
def runTimes : Nat → Player → Player × List RunEnd
  | 0, p => (p, [])
  | n + 1, p =>
    let (p, first) := p.run
    let (p, rest) := runTimes n p
    (p, first :: rest)

/-- Shuts the agent of the last run down. Without one there is nothing to do. -/
def destroy (p : Player) : Player × Outcome Unit :=
  match p.held with
  | none => (p, .value ())
  | some agent =>
    let reply := agent.destroy p.asked
    let p := { p.note [.destroyed] with held := none }
    (p.signals agent.slot reply.signals, reply.outcome)

/-- Shuts the agent down a number of times, and how each of them ends. -/
def destroyTimes : Nat → Player → Player × List (Outcome Unit)
  | 0, p => (p, [])
  | n + 1, p =>
    let (p, first) := p.destroy
    let (p, rest) := destroyTimes n p
    (p, first :: rest)

end Runbook.Player
