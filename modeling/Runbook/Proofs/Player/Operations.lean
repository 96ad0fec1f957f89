/-
What a run asks of its agent.

The operations of a run are those of the items it plays, in the order in which it plays them: an
item asks for the one operation of its command, and for none if it is a pause or is not
understood. Which items are played is said by `Transcript.Sequential`. A note for the report never
keeps the rest of its task from being played.
-/
import Mathlib.Data.List.Basic
import Runbook.Agent.Rehearsal
import Runbook.Proofs.Player.Follow

namespace Runbook

/-- The operation that an item asks for, if it comes to one. -/
def Step.operation? (registry : Registry) (item : Item) : Option Operation :=
  match (Step.resolve registry item).run.value with
  | .ok step => step.command.operation?
  | .error _ => none

namespace Transcript

variable {agent : Agent} {registry : Registry} {sink : Sink} {before : List Turn} {item : Item}

theorem turn_operation? : (turn agent registry sink before item).operation? =
    Step.operation? registry (turn agent registry sink before item).item := by
  unfold Turn.operation? Step.operation?
  rfl

/-- The turn of a note for the report ends well though the agent does not take the note. -/
theorem turn_report {title content text : String}
    (h : (turn agent registry sink before item).operation? = some (.report title content))
    (hfailure : (agent.respond (operations before) (.report title content)).outcome =
      .failure text) : (turn agent registry sink before item).ending = .done () := by
  obtain ⟨step, hok, hreport⟩ := Turn.operation?_eq_some_iff.mp h
  have hcarry : carry agent (operations before) step.command = .done {} := by
    rw [hreport, carry, hfailure]
    rfl
  rw [turn_of_ok hok, hcarry]
  rfl

end Transcript

namespace Player

/-- **What a run asks for.** Whatever the agent answers, the operations it is issued in a first
run are those of the items that are played: the items of each task in order up to the first that
does not end well, and the tasks in order up to the first that ends the run. A note for the
report that the agent does not take ends nothing. -/
theorem run_operations {agent : Agent} {registry : Registry}
    (hr : Registry.build agent.actions = .ok registry) (script : Script) (config : Config)
    (path : Option String) (cleanups : List Cleanup) (takes : Nat → Bool) :
    let start := Player.new script config path (.ready agent cleanups) takes
    let account := start.account agent registry
    start.run.1.issued = account.flatten.filterMap (fun t => Step.operation? registry t.item) ∧
      Transcript.Sequential agent registry start.results.sink script.tasks account ∧
      ∀ (i j : Nat) (turns : List Turn) (t : Turn) (title content text : String),
        account[i]? = some turns → turns[j]? = some t →
        Step.operation? registry t.item = some (.report title content) →
        (agent.respond (Transcript.operations ((account.take i).flatten ++ turns.take j))
          (.report title content)).outcome = .failure text → t.ending = .done () := by
  intro start account
  have hsequential := account_sequential start agent registry
  obtain ⟨hfollows, -⟩ := run_follows hr script config path cleanups takes
  refine ⟨?_, hsequential, ?_⟩
  · rw [hfollows.issued]
    refine List.filterMap_congr ?_
    intro t ht
    obtain ⟨before, item, rfl⟩ := hsequential.mem_flatten ht
    exact Transcript.turn_operation?
  · intro i j turns t title content text hturns ht hreport hfailure
    obtain ⟨task, item, -, -, rfl⟩ := hsequential.turn_eq i j turns t hturns ht
    exact Transcript.turn_report (Transcript.turn_operation?.trans hreport) hfailure

theorem run_operations_errand :
    Registry.build Agent.idle.actions = .ok .empty ∧
    let start := Player.new errand ⟨"", false, ""⟩ none (.ready .idle []) fun _ => true
    let account := start.account .idle .empty
    start.run.1.issued.map Operation.method = ["javascript", "recordToReport", "aiAct"] ∧
      account.map List.length = [2, 1, 0, 1] ∧
      start.run.1.issued = account.flatten.filterMap (fun t => Step.operation? .empty t.item) ∧
      Transcript.Sequential .idle .empty start.results.sink errand.tasks account := by
  have hr : Registry.build Agent.idle.actions = .ok .empty := rfl
  obtain ⟨hissued, hsequential, -⟩ :=
    run_operations hr errand ⟨"", false, ""⟩ none [] fun _ => true
  exact ⟨hr, by decide +kernel, by decide +kernel, hissued, hsequential⟩

end Player

end Runbook
