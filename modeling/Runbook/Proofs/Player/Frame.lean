/-
What playing a step does not touch.

A step asks the agent, hears tips and keeps results. Everything else about
the player stays as it is: its tasks, its status, the slot and what it was
made from. `Still` says so once, and each operation below the level of a
task has one lemma. A flow also moves the current step of its own task,
which is why `Steady`, the part of `Still` that holds of a flow too, leaves
the tasks out.

An agent that answers every operation (`Agent.Answers`) lets no run hang
or give way, so what it is asked ends in a value or in an error.
-/
import Runbook.Player.Run

namespace Runbook

/-- Every operation ends, whatever was asked before: with an answer or with an error. -/
def Agent.Answers (agent : Agent) : Prop :=
  ∀ asked operation, (∃ a, (agent.respond asked operation).outcome = .value a) ∨
    ∃ text, (agent.respond asked operation).outcome = .failure text

/-- An agent that carries nothing out. -/
def Agent.idle : Agent where
  actions := []
  respond _ _ := .fail "not now"
  destroy _ := .fail "not now"
  slot := .vacant
  report _ := none

theorem Agent.idle_answers : Agent.idle.Answers := fun _ _ => .inr ⟨"not now", rfl⟩

namespace Ending

/-- The piece of the run came back. -/
def Returns {α : Type} (e : Ending α) : Prop := (∃ a, e = .done a) ∨ ∃ error, e = .failed error

theorem Returns.done {α : Type} (a : α) : Returns (.done a) := .inl ⟨a, rfl⟩

theorem Returns.failed {α : Type} (error : Error) : Returns (.failed error : Ending α) :=
  .inr ⟨error, rfl⟩

end Ending

namespace Player

/-- All that playing a flow leaves as it is. The rest is the tasks and the
record of what was asked, heard, kept and warned about. -/
structure Steady (p q : Player) : Prop where
  script : q.script = p.script
  destination : q.destination = p.destination
  setup : q.setup = p.setup
  isSetUp : q.isSetUp = p.isSetUp
  status : q.status = p.status
  currentTask : q.currentTask = p.currentTask
  setupError : q.setupError = p.setupError
  held : q.held = p.held
  reportFile : q.reportFile = p.reportFile
  reports : q.reports = p.reports
  slot : q.slot = p.slot

/-- All that playing a step leaves as it is. -/
structure Still (p q : Player) : Prop extends Steady p q where
  tasks : q.tasks = p.tasks

namespace Steady

theorem refl (p : Player) : Steady p p := by constructor <;> rfl

theorem trans {p q r : Player} (h : Steady p q) (h' : Steady q r) : Steady p r where
  script := h'.script.trans h.script
  destination := h'.destination.trans h.destination
  setup := h'.setup.trans h.setup
  isSetUp := h'.isSetUp.trans h.isSetUp
  status := h'.status.trans h.status
  currentTask := h'.currentTask.trans h.currentTask
  setupError := h'.setupError.trans h.setupError
  held := h'.held.trans h.held
  reportFile := h'.reportFile.trans h.reportFile
  reports := h'.reports.trans h.reports
  slot := h'.slot.trans h.slot

end Steady

namespace Still

theorem refl (p : Player) : Still p p := ⟨.refl p, rfl⟩

theorem trans {p q r : Player} (h : Still p q) (h' : Still q r) : Still p r :=
  ⟨h.toSteady.trans h'.toSteady, h'.tasks.trans h.tasks⟩

end Still

theorem note_still (p : Player) (events : List Event) : Still p (p.note events) :=
  ⟨by constructor <;> rfl, rfl⟩

theorem warn_still (p : Player) (warnings : List Warning) : Still p (p.warn warnings) :=
  ⟨by constructor <;> rfl, rfl⟩

/-! ## Tips and signals -/

theorem emit_still (p : Player) (before : TipSlot) (text : String) :
    Still p (p.emit before text) := by
  unfold emit
  split
  · split <;> exact ⟨by constructor <;> rfl, rfl⟩
  · exact note_still p _

theorem signal_still (p : Player) (before : TipSlot) (s : Signal) :
    Still p (p.signal before s) := by
  cases s with
  | performed operation => exact note_still p _
  | closed => exact note_still p _
  | tip text => exact emit_still p before text

theorem signals_still (before : TipSlot) (ss : List Signal) (p : Player) :
    Still p (p.signals before ss) :=
  List.foldlRecOn ss _ (.refl p) fun q h s _ => h.trans (signal_still q before s)

/-! ## Steps -/

theorem ask_still (p : Player) (agent : Agent) (operation : Operation) :
    Still p (p.ask agent operation).1 := by
  have asked : Still p { p.note [.asked operation] with asked := p.asked ++ [operation] } :=
    ⟨by constructor <;> rfl, rfl⟩
  exact asked.trans (signals_still _ _ _)

theorem carryOut_still (p : Player) (agent : Agent) (command : Command) :
    Still p (p.carryOut agent command).1 := by
  cases command with
  | pause micros => exact .refl p
  | ask operation => exact (ask_still p agent operation).trans (warn_still _ _)

theorem recordResult_still (p : Player) (name : Option String) (value : Value) :
    Still p (p.recordResult name value).1 :=
  ⟨by constructor <;> rfl, rfl⟩

theorem keep_still (p : Player) (step : Step) (yield : Yield) :
    Still p (p.keep step yield).1 := by
  unfold keep
  split
  · exact .refl p
  · split
    · exact recordResult_still p _ _
    · exact .refl p

theorem playStep_still (p : Player) (agent : Agent) (step : Step) :
    Still p (p.playStep agent step).1 := by
  have carried := carryOut_still p agent step.command
  unfold playStep
  split <;> rename_i hq <;> rw [hq] at carried
  · exact carried.trans (keep_still _ step _)
  all_goals exact carried

theorem playItem_still (p : Player) (agent : Agent) (registry : Registry) (item : Item) :
    Still p (p.playItem agent registry item).1 := by
  have warned := warn_still p (Step.resolve registry item).run.warnings
  unfold playItem
  dsimp only
  split
  · exact warned
  · exact warned.trans (playStep_still _ agent _)

/-! ## Endings -/

theorem ask_returns {agent : Agent} (ha : agent.Answers) (p : Player) (operation : Operation) :
    (operation.ending (p.ask agent operation).2).Returns := by
  unfold ask
  rcases ha p.asked operation with ⟨a, h⟩ | ⟨text, h⟩
  · simp only [h, Operation.ending]
    exact .done _
  · simp only [h, Operation.ending]
    split
    · exact .done _
    · exact .failed _

theorem carryOut_returns {agent : Agent} (ha : agent.Answers) (p : Player) (command : Command) :
    (p.carryOut agent command).2.Returns := by
  cases command with
  | pause micros => exact .done _
  | ask operation => exact ask_returns ha p operation

theorem endingOf_returns (yield : Yield) (kept : Except Error Unit) :
    (endingOf yield kept).Returns := by
  unfold endingOf
  split
  · exact .failed _
  · split
    · exact .failed _
    · exact .done _

theorem playStep_returns {agent : Agent} (ha : agent.Answers) (p : Player) (step : Step) :
    (p.playStep agent step).2.Returns := by
  have carried := carryOut_returns ha p step.command
  unfold playStep
  split <;> rename_i hq <;> rw [hq] at carried
  · exact endingOf_returns _ _
  all_goals rcases carried with ⟨_, h⟩ | ⟨_, h⟩ <;> cases h
  exact .failed _

theorem playItem_returns {agent : Agent} (ha : agent.Answers) (p : Player) (registry : Registry)
    (item : Item) : (p.playItem agent registry item).2.Returns := by
  unfold playItem
  dsimp only
  split
  · exact .failed _
  · exact playStep_returns ha _ _

/-! ## The beginning and the end of a run -/

/-- The player as it begins to play on an agent that was just set up. -/
def ready (p : Player) (agent : Agent) : Player :=
  { p.note [.setup p.script.target] with
    isSetUp := true, status := .running, held := some agent, slot := listening agent.slot }

/-- A player whose agent can be set up plays its tasks and cleans up. -/
theorem run_eq {p : Player} {agent : Agent} {cleanups : List Cleanup} {registry : Registry}
    (hfirst : p.isSetUp = false) (hsetup : p.setup = .ready agent cleanups)
    (hr : Registry.build agent.actions = .ok registry) : p.run =
      match playTasks agent registry 0 p.script.tasks (p.ready agent) with
      | (q, .done _) => (q.finish ⟨agent, registry, cleanups⟩ .done, .finished .done)
      | (q, .failed _) => (q.finish ⟨agent, registry, cleanups⟩ .error, .finished .error)
      | (q, .hung) => (q, .hung)
      | (q, .crashed) => (q, .crashed) := by
  have hset : { p with status := .running }.setUp =
      (p.ready agent, .ok ⟨agent, registry, cleanups⟩) := by
    simp only [setUp, hfirst, Bool.false_eq_true, if_false, note, ready, hsetup, hr]
  simp only [run, hset]
  rfl

theorem cleanUp_still (p : Player) (agent : Agent) (c : Cleanup) : Still p (p.cleanUp agent c) := by
  have tips : Still (p.note [.cleanup c.name])
      (c.tips.foldl (fun p text => p.emit agent.slot text) (p.note [.cleanup c.name])) :=
    List.foldlRecOn c.tips _ (.refl _) fun q h text _ => h.trans (emit_still q agent.slot text)
  exact ((note_still p _).trans tips).trans (warn_still _ _)

theorem cleanUps_still (agent : Agent) (cs : List Cleanup) (p : Player) :
    Still p (cs.foldl (fun p c => p.cleanUp agent c) p) :=
  List.foldlRecOn cs _ (.refl p) fun q h c _ => h.trans (cleanUp_still q agent c)

/-- The end of a run decides the status, and no cleanup changes it. -/
theorem finish_status (p : Player) (ready : Ready) (status : Status) :
    (p.finish ready status).status = status :=
  (cleanUps_still ready.agent ready.cleanups { p with status, tip := none }).status

theorem finish_tasks (p : Player) (ready : Ready) (status : Status) :
    (p.finish ready status).tasks = p.tasks :=
  (cleanUps_still ready.agent ready.cleanups { p with status, tip := none }).tasks

theorem finish_currentTask (p : Player) (ready : Ready) (status : Status) :
    (p.finish ready status).currentTask = p.currentTask :=
  (cleanUps_still ready.agent ready.cleanups { p with status, tip := none }).currentTask

end Player

end Runbook
