/-
What a caller does with a player: runs and destructions, in any order.

The agent is set up by the first run and by no other. `run_accepted` and
`run_refused` say how that run goes, by what setting up comes to, and
`run_again` that a later run does nothing but fail, also over and over
(`later_runs_inert`). After the first run the only thing left to happen is that
the agent shuts down (`calls_grows`), and that happens once
(`calls_destructions`).
-/
import Runbook.Proofs.Player.Background
import Runbook.Proofs.Player.Trace

namespace Runbook

/-- What a caller may ask of a player. -/
inductive Call where
  | run
  | destroy
deriving DecidableEq

/-- What setting up comes to: an agent to play on, or the error that stops the run. -/
def Setup.outcome : Setup → Except Error Player.Ready
  | .failed text => .error (.agent text)
  | .ready agent cleanups =>
    (Registry.build agent.actions).map fun registry => ⟨agent, registry, cleanups⟩

theorem Setup.outcome_of_build {agent : Agent} {registry : Registry}
    (h : Registry.build agent.actions = .ok registry) (cleanups : List Cleanup) :
    (Setup.ready agent cleanups).outcome = .ok ⟨agent, registry, cleanups⟩ := by
  rw [outcome, h]
  rfl

theorem Setup.outcome_of_clash {agent : Agent} {e : Error}
    (h : Registry.build agent.actions = .error e) (cleanups : List Cleanup) :
    (Setup.ready agent cleanups).outcome = .error e := by
  rw [outcome, h]
  rfl

theorem Setup.eq_of_outcome {setup : Setup} {ready : Player.Ready} (h : setup.outcome = .ok ready) :
    setup = .ready ready.agent ready.cleanups ∧
      Registry.build ready.agent.actions = .ok ready.registry := by
  cases setup with
  | failed text => cases h
  | ready agent cleanups =>
    rw [outcome] at h
    cases hb : Registry.build agent.actions with
    | error e => rw [hb] at h; cases h
    | ok registry =>
      rw [hb] at h
      cases h
      exact ⟨rfl, hb⟩

namespace Player

/-- The player after a call. -/
def call (p : Player) : Call → Player
  | .run => p.run.1
  | .destroy => p.destroy.1

/-- The player after some calls, one after the other. -/
def calls (p : Player) (cs : List Call) : Player := cs.foldl call p

theorem calls_cons (p : Player) (c : Call) (cs : List Call) :
    p.calls (c :: cs) = (p.call c).calls cs := rfl

variable {p : Player} {ready : Ready}

/-! ## Coming back -/

theorem playFlow_returns {agent : Agent} (ha : agent.Answers) (registry : Registry)
    (index first : Nat) (items : List Item) (p : Player) :
    (playFlow agent registry index first items p).2.Returns := by
  obtain ⟨q, -, ⟨hplay, -⟩ | ⟨step, error, hplay, -⟩⟩ :=
    playFlow_cases ha registry index items first p
  · rw [hplay]
    exact .done _
  · rw [hplay]
    exact .failed error

theorem playTask_returns {agent : Agent} (ha : agent.Answers) (registry : Registry) (index : Nat)
    (task : Task) (p : Player) : (playTask agent registry index task p).2.Returns := by
  have played := playFlow_returns ha registry index 0 task.flow (p.opening index)
  rw [playTask_eq]
  cases hplay : playFlow agent registry index 0 task.flow (p.opening index) with | mk q ending
  rw [hplay] at played
  rcases played with ⟨a, rfl⟩ | ⟨error, rfl⟩
  · exact .done _
  · exact .failed error

theorem playTasks_returns {agent : Agent} (ha : agent.Answers) (registry : Registry)
    (tasks : List Task) (index : Nat) (p : Player) :
    (playTasks agent registry index tasks p).2.Returns := by
  induction tasks generalizing index p with
  | nil => exact .done _
  | cons task rest ih =>
    have played := playTask_returns ha registry index task p
    rw [playTasks]
    cases hplay : playTask agent registry index task p with | mk q ending
    rw [hplay] at played
    rcases played with ⟨a, rfl⟩ | ⟨error, rfl⟩
    · exact ih (index + 1) q
    · dsimp only
      split
      · exact ih (index + 1) q
      · exact .failed error

/-! ## Runs -/

/-- How a run ends whose tasks ended so. -/
def runEnd : Ending Unit → RunEnd
  | .done _ => .finished .done
  | .failed _ => .finished .error
  | .hung => .hung
  | .crashed => .crashed

theorem runEnd_of_returns {e : Ending Unit} (h : e.Returns) :
    ∃ status, runEnd e = .finished status := by
  rcases h with ⟨a, rfl⟩ | ⟨error, rfl⟩
  · exact ⟨.done, rfl⟩
  · exact ⟨.error, rfl⟩

/-- The player once a run has ended for its caller. Only a run that comes back is cleaned up after. -/
def concluded (p : Player) (ready : Ready) : RunEnd → Player
  | .finished status => p.finish ready status
  | .hung | .crashed => p

theorem concluded_grows (p : Player) (ready : Ready) (e : RunEnd) :
    Grows Event.isOfCleanup p (p.concluded ready e) := by
  cases e with
  | finished status => exact finish_grows p ready status
  | hung => exact .refl p
  | crashed => exact .refl p

/-- The run of a player that can be set up: it plays the tasks and concludes. -/
theorem run_accepted (hfirst : p.isSetUp = false) (h : p.setup.outcome = .ok ready) :
    let played := playTasks ready.agent ready.registry 0 p.script.tasks (p.ready ready.agent)
    p.run = (played.1.concluded ready (runEnd played.2), runEnd played.2) := by
  obtain ⟨hsetup, hr⟩ := Setup.eq_of_outcome h
  dsimp only
  rw [run_eq hfirst hsetup hr]
  cases playTasks ready.agent ready.registry 0 p.script.tasks (p.ready ready.agent) with
  | mk q ending
  cases ending <;> rfl

theorem run_refused {e : Error} (hfirst : p.isSetUp = false) (h : p.setup.outcome = .error e) :
    p.run = ({ p.note [.setup p.script.target] with
      isSetUp := true, status := .error, setupError := some e }, .finished .error) := by
  have hset : { p with status := .running }.setUp =
      ({ p.note [.setup p.script.target] with isSetUp := true, status := .running },
        .error e) := by
    obtain ⟨setup, hsetup⟩ : ∃ setup, p.setup = setup := ⟨_, rfl⟩
    rw [hsetup] at h
    simp only [setUp, hfirst, Bool.false_eq_true, if_false, note, hsetup]
    cases setup with
    | failed text =>
      cases h
      rfl
    | ready agent cleanups =>
      rw [Setup.outcome] at h
      cases hb : Registry.build agent.actions with
      | ok registry => rw [hb] at h; cases h
      | error e' =>
        rw [hb] at h
        cases h
        simp only [hb]
  simp only [run, hset]

/-- A run after the first only fails. -/
theorem run_again (h : p.isSetUp = true) :
    p.run = ({ p with status := .error, setupError := some (.invalidScript .alreadyRun) },
      .finished .error) := by
  have hset : { p with status := .running }.setUp =
      ({ p with status := .running }, .error (.invalidScript .alreadyRun)) := by
    unfold setUp
    simp only [h, if_true]
  simp only [run, hset]

/-- A run on an agent that answers every operation comes back. -/
theorem run_finished (hfirst : p.isSetUp = false) (h : p.setup.outcome = .ok ready)
    (ha : ready.agent.Answers) : ∃ status, p.run.2 = .finished status := by
  rw [run_accepted hfirst h]
  exact runEnd_of_returns (playTasks_returns ha ready.registry p.script.tasks 0 _)

/-! ## Setting up once -/

theorem concluded_isSetUp (p : Player) (ready : Ready) (e : RunEnd) :
    (p.concluded ready e).isSetUp = p.isSetUp := by
  cases e with
  | finished status =>
    exact (cleanUps_still ready.agent ready.cleanups { p with status, tip := none }).isSetUp
  | hung => rfl
  | crashed => rfl

theorem concluded_held (p : Player) (ready : Ready) (e : RunEnd) :
    (p.concluded ready e).held = p.held := by
  cases e with
  | finished status =>
    exact (cleanUps_still ready.agent ready.cleanups { p with status, tip := none }).held
  | hung => rfl
  | crashed => rfl

/-- A first run that is accepted leaves its agent held. -/
theorem run_held (hfirst : p.isSetUp = false) (h : p.setup.outcome = .ok ready) :
    p.run.1.isSetUp = true ∧ p.run.1.held = some ready.agent := by
  rw [run_accepted hfirst h, concluded_isSetUp, concluded_held, playTasks_isSetUp, playTasks_held]
  exact ⟨rfl, rfl⟩

theorem run_isSetUp (p : Player) : p.run.1.isSetUp = true := by
  cases hfirst : p.isSetUp with
  | true => rw [run_again hfirst]; exact hfirst
  | false =>
    cases h : p.setup.outcome with
    | ok ready => exact (run_held hfirst h).1
    | error e => rw [run_refused hfirst h]

theorem destroy_isSetUp (p : Player) : p.destroy.1.isSetUp = p.isSetUp := by
  unfold destroy
  split
  · rfl
  · exact (signals_still _ _ _).isSetUp

theorem destroy_held (p : Player) : p.destroy.1.held = none := by
  unfold destroy
  split
  · assumption
  · exact (signals_still _ _ _).held

theorem call_isSetUp (h : p.isSetUp = true) (c : Call) : (p.call c).isSetUp = true := by
  cases c with
  | run => rw [call, run_again h]; exact h
  | destroy => rw [call, destroy_isSetUp]; exact h

/-! ## After the first run -/

theorem call_grows (h : p.isSetUp = true) (c : Call) : Grows Event.isOfShutdown p (p.call c) := by
  cases c with
  | run => rw [call, run_again h]; exact .of_trace_eq rfl
  | destroy => exact destroy_grows p

/-- **Once the agent was set up, nothing happens any more but that it shuts down.** -/
theorem calls_grows (h : p.isSetUp = true) (cs : List Call) :
    Grows Event.isOfShutdown p (p.calls cs) := by
  induction cs generalizing p with
  | nil => exact .refl p
  | cons c cs ih => exact (call_grows h c).trans (ih (call_isSetUp h c))

theorem calls_cleaned (h : p.isSetUp = true) (cs : List Call) :
    (p.calls cs).cleaned = p.cleaned :=
  (calls_grows h cs).cleaned_eq fun _ => rfl

/-- The agent that a player holds is the one that is told to shut down when it is held no more. -/
theorem call_destructions (h : p.isSetUp = true) (c : Call) :
    (p.call c).destructions + (p.call c).held.toList.length =
      p.destructions + p.held.toList.length := by
  cases c with
  | run => rw [call, run_again h]; rfl
  | destroy =>
    cases hheld : p.held with
    | none => rw [call, destroy_of_held_eq_none hheld, hheld]
    | some agent =>
      rw [call, destroy_held, destroy_destructions hheld]
      rfl

theorem call_held_of_none (h : p.isSetUp = true) (hheld : p.held = none) (c : Call) :
    (p.call c).held = none := by
  cases c with
  | run => rw [call, run_again h]; exact hheld
  | destroy => exact destroy_held p

theorem calls_held_of_none (h : p.isSetUp = true) (hheld : p.held = none) (cs : List Call) :
    (p.calls cs).held = none := by
  induction cs generalizing p with
  | nil => exact hheld
  | cons c cs ih => exact ih (call_isSetUp h c) (call_held_of_none h hheld c)

theorem calls_held (h : p.isSetUp = true) {cs : List Call} (hcs : .destroy ∈ cs) :
    (p.calls cs).held = none := by
  induction cs generalizing p with
  | nil => cases hcs
  | cons c cs ih =>
    rcases List.mem_cons.mp hcs with rfl | hcs
    · exact calls_held_of_none (call_isSetUp h .destroy) (destroy_held p) cs
    · exact ih (call_isSetUp h c) hcs

/-- **An agent that is held is told to shut down once**, however often that is asked for. -/
theorem calls_destructions (h : p.isSetUp = true) {cs : List Call} (hcs : .destroy ∈ cs) :
    (p.calls cs).destructions = p.destructions + p.held.toList.length := by
  -- What was shut down and what is still held never change in sum, and in the end nothing is held.
  have settled : ∀ (cs : List Call) (p : Player), p.isSetUp = true →
      (p.calls cs).destructions + (p.calls cs).held.toList.length =
        p.destructions + p.held.toList.length := by
    intro cs
    induction cs with
    | nil => exact fun _ _ => rfl
    | cons c cs ih =>
      intro p h
      rw [calls_cons, ih _ (call_isSetUp h c), call_destructions h c]
  have hsettled := settled cs p h
  rw [calls_held h hcs] at hsettled
  exact hsettled

/-- What is asked of a player before its first run changes nothing, as it holds no agent. -/
theorem calls_eq_of_sublist (hheld : p.held = none) {cs : List Call}
    (hcs : [Call.run, .destroy].Sublist cs) :
    ∃ later, .destroy ∈ later ∧ p.calls cs = p.run.1.calls later := by
  induction cs with
  | nil => cases hcs
  | cons c cs ih =>
    cases c with
    | run =>
      refine ⟨cs, ?_, rfl⟩
      cases hcs with
      | cons _ hcs => exact hcs.subset (by simp)
      | cons_cons _ hcs => exact List.singleton_sublist.mp hcs
    | destroy =>
      -- The run is still to come, so the player is the one that began.
      cases hcs with
      | cons _ hcs =>
        obtain ⟨later, hlater, hcalls⟩ := ih hcs
        refine ⟨later, hlater, ?_⟩
        rw [calls_cons, call, destroy_of_held_eq_none hheld, hcalls]

/-! ## Later runs -/

theorem calls_isSetUp (h : p.isSetUp = true) (cs : List Call) : (p.calls cs).isSetUp = true := by
  induction cs generalizing p with
  | nil => exact h
  | cons c cs ih => exact ih (call_isSetUp h c)

/-- Runs after the first only fail, and the later of them find the player as the first has left
it. -/
theorem runTimes_again (h : p.isSetUp = true) (n : Nat) : runTimes (n + 1) p =
    ({ p with status := .error, setupError := some (.invalidScript .alreadyRun) },
      List.replicate (n + 1) (.finished .error)) := by
  induction n generalizing p with
  | zero => rw [runTimes, run_again h]; rfl
  | succ n ih =>
    have later := ih (p := { p with
      status := .error, setupError := some (.invalidScript .alreadyRun) }) h
    rw [runTimes, run_again h]
    dsimp only
    rw [later]
    rfl

/-- **Later runs are inert.** Once a player was run, however that run went and whatever was asked
of the player since, every further run fails. All that comes of any number of them is that the
player has failed, and the error that it has already run: its tasks, results and tip are what they
were, and nothing has happened outside the player. -/
theorem later_runs_inert (script : Script) (config : Config) (path : Option String)
    (setup : Setup) (takes : Nat → Bool) (cs : List Call) (n : Nat) :
    let p := (Player.new script config path setup takes).run.1.calls cs
    runTimes (n + 1) p =
      ({ p with status := .error, setupError := some (.invalidScript .alreadyRun) },
        List.replicate (n + 1) (.finished .error)) :=
  runTimes_again (calls_isSetUp (run_isSetUp _) cs) n

end Player

end Runbook
