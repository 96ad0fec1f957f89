/-
Giving a session back.

Setting up hands the player a session: an agent, and what is to be cleaned up
after the run. `session_released` says what becomes of the two over any
sequence of calls in which the agent is destroyed after the run. An agent that
is played on is told to shut down exactly once, and if the run comes back every
cleanup begins exactly once. But a session whose actions have a key in common
is refused after it was handed over, and then neither its cleanups nor its
agent are ever heard of again.
-/
import Runbook.Proofs.Player.Cleanup

namespace Runbook

namespace Player

variable {p : Player} {ready : Ready}

/-- No run shuts the agent down. -/
theorem run_destructions (hfirst : p.isSetUp = false) (h : p.setup.outcome = .ok ready) :
    p.run.1.destructions = p.destructions := by
  rw [run_accepted hfirst h, (concluded_grows _ ready _).destructions_eq rfl,
    (playTasks_grows _ _ _ _ _).destructions_eq rfl, (ready_grows p ready.agent).destructions_eq rfl]

/-- What a first run begins to clean up: everything if it comes back, and else nothing. -/
theorem run_cleaned (hfirst : p.isSetUp = false) (h : p.setup.outcome = .ok ready) :
    p.run.1.cleaned = match p.run.2 with
      | .finished _ => p.cleaned ++ ready.cleanups.map Cleanup.name
      | .hung | .crashed => p.cleaned := by
  have played := played_cleaned p ready.agent ready.registry p.script.tasks
  rw [run_accepted hfirst h]
  dsimp only
  split
  · next status hend => rw [hend, concluded, finish_cleaned, played]
  · next hend => rw [hend, concluded, played]
  · next hend => rw [hend, concluded, played]

/-- **What becomes of a session.** It is handed to a player that is destroyed after its run, among
any other calls. If the agent can be played on, it is told to shut down exactly once; a run on it
comes back if it answers, and what comes back has begun every cleanup exactly once. If two actions
of the agent have a key in common, the run ends in error: no cleanup ever begins, and the agent is
neither held nor ever told to shut down. -/
theorem session_released (agent : Agent) (script : Script) (config : Config)
    (path : Option String) (cleanups : List Cleanup) (takes : Nat → Bool) {calls : List Call}
    (hcalls : [Call.run, .destroy].Sublist calls) :
    let start := Player.new script config path (.ready agent cleanups) takes
    let q := start.calls calls
    (∀ registry, Registry.build agent.actions = .ok registry →
      q.destructions = 1 ∧ (agent.Answers → ∃ status, start.run.2 = .finished status) ∧
        q.cleaned = match start.run.2 with
          | .finished _ => cleanups.map Cleanup.name
          | .hung | .crashed => []) ∧
    ∀ e, Registry.build agent.actions = .error e →
      start.run.2 = .finished .error ∧ q.destructions = 0 ∧ q.cleaned = [] ∧ q.held = none := by
  intro start q
  obtain ⟨later, hlater, hq⟩ := calls_eq_of_sublist (p := start) rfl hcalls
  have hq : q = start.run.1.calls later := hq
  refine ⟨fun registry hr => ?_, fun e he => ?_⟩
  · have haccepted : start.setup.outcome = .ok ⟨agent, registry, cleanups⟩ :=
      Setup.outcome_of_build hr cleanups
    obtain ⟨hset, hheld⟩ := run_held rfl haccepted
    refine ⟨?_, run_finished rfl haccepted, ?_⟩
    · rw [hq, calls_destructions hset hlater, hheld, run_destructions rfl haccepted]
      rfl
    · rw [hq, calls_cleaned hset, run_cleaned rfl haccepted]
      rfl
  · have hrefused : start.setup.outcome = .error e := Setup.outcome_of_clash he cleanups
    have hrun := run_refused rfl hrefused
    have hset : start.run.1.isSetUp = true := by rw [hrun]
    have hheld : start.run.1.held = none := by rw [hrun]; rfl
    refine ⟨by rw [hrun], ?_, ?_, ?_⟩
    · rw [hq, calls_destructions hset hlater, hheld, hrun]
      rfl
    · rw [hq, calls_cleaned hset, hrun]
      rfl
    · rw [hq, calls_held_of_none hset hheld]

end Player

/-- An agent with two actions of one alias. -/
def Agent.ambiguous : Agent := { Agent.idle with
  actions := [
    ⟨"Greet", some "hello", "say hello", none, .custom⟩,
    ⟨"Wave", some "hello", "wave a hand", none, .custom⟩] }

namespace Player

theorem session_released_teardown :
    let calls := [Call.destroy, .run, .run, .destroy, .run, .destroy]
    let played := Player.new errand ⟨"", false, ""⟩ none (.ready .idle teardown) fun _ => true
    let refused := Player.new errand ⟨"", false, ""⟩ none (.ready .ambiguous teardown) fun _ => true
    [Call.run, .destroy].Sublist calls ∧
      (played.run.2 = .finished .error ∧ (played.calls calls).destructions = 1 ∧
        (played.calls calls).cleaned = ["stop-recording", "flush", "close-browser"]) ∧
      (refused.run.2 = .finished .error ∧ (refused.calls calls).destructions = 0 ∧
        (refused.calls calls).cleaned = []) := by
  intro calls played refused
  have hcalls : [Call.run, .destroy].Sublist calls := by decide
  have hrun : played.run.2 = .finished .error := by decide +kernel
  obtain ⟨hplayed, -⟩ :=
    session_released .idle errand ⟨"", false, ""⟩ none teardown (fun _ => true) hcalls
  obtain ⟨-, hrefused⟩ :=
    session_released .ambiguous errand ⟨"", false, ""⟩ none teardown (fun _ => true) hcalls
  obtain ⟨hdestroyed, -, hcleaned⟩ := hplayed .empty rfl
  obtain ⟨hended, hnever, hnothing, -⟩ :=
    hrefused (.duplicateAction "hello" "Greet" "Wave") rfl
  rw [show (Player.new errand ⟨"", false, ""⟩ none (.ready .idle teardown) fun _ => true).run.2 =
    .finished .error from hrun] at hcleaned
  exact ⟨hcalls, ⟨hrun, hdestroyed, hcleaned⟩, hended, hnever, hnothing⟩

end Player

end Runbook
