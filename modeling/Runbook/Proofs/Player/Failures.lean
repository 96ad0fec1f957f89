/-
Why a task fails.

The item that fails a task either is not understood, and then nothing was asked of the agent for
it, or its operation was issued, and then the failure came after. Errors of the first kind are
the structural ones and errors of the second kind never are, so a failed task tells by its error
whether its last item had any effect.
-/
import Runbook.Proofs.Player.Follow
import Runbook.Proofs.Step.Structural

namespace Runbook

/-- The last turn of a task that failed is the one that did, with the task's error. -/
theorem TaskState.after_failed {task : Task} {turns : List Turn}
    (h : (TaskState.after task turns).status = .error) :
    ∃ step t error, turns[step]? = some t ∧ t.ending = .failed error ∧
      TaskState.after task turns =
        { task, status := .error, currentStep := some step, error := some error } := by
  cases hlast : turns.getLast? with
  | none =>
    rw [List.getLast?_eq_none_iff.mp hlast] at h
    cases h
  | some t =>
    have hstep : lastStep? (turns.map Turn.item) = some (turns.length - 1) := by
      cases turns with
      | nil => cases hlast
      | cons u us => simp [lastStep?]
    have hending : Transcript.ending turns = t.ending := by rw [Transcript.ending, hlast]
    rw [List.getLast?_eq_getElem?] at hlast
    unfold TaskState.after at h ⊢
    rw [hending] at h ⊢
    cases hend : t.ending with
    | done => rw [hend] at h; cases h
    | hung => rw [hend] at h; cases h
    | crashed => rw [hend] at h; cases h
    | failed error => exact ⟨turns.length - 1, t, error, hlast, hend, by rw [hstep]⟩

/-- A turn that failed asked nothing of the agent just if its error is structural. -/
theorem Turn.FailedBy.isStructural_iff {sink : Sink} {t : Turn} {e : Error}
    (h : t.FailedBy sink e) (hstep : ∀ e, t.step = .error e → e.isStructural = true) :
    e.isStructural = true ↔ t.operation? = none := by
  -- An error that comes after the operation was issued has to be of the other kind.
  have asked : ∀ {step : Step} {operation : Operation}, t.step = .ok step →
      step.command = .ask operation → e.isStructural = false →
        (e.isStructural = true ↔ t.operation? = none) := by
    intro step operation hok hcommand he
    rw [he, Turn.operation?_eq_some_iff.mpr ⟨step, hok, hcommand⟩]
    simp
  cases h with
  | unresolved hresolved =>
    simp only [hstep e hresolved, Turn.operation?, hresolved]
  | refused hok hcommand hcarried => exact asked hok hcommand rfl
  | denied hok hcommand hpass hrecording => exact asked hok hcommand rfl
  | @unwritten step hok hpolicy hsink hkept =>
    cases hcommand : step.command with
    | pause micros =>
      rw [hcommand] at hpolicy
      exact absurd rfl hpolicy
    | ask operation => exact asked hok hcommand rfl

namespace Player

theorem carryOut_error {p : Player} {agent : Agent} {command : Command} {e : Error}
    (h : (p.carryOut agent command).2 = .failed e) : e.isStructural = false := by
  rw [(carryOut_eq p agent command).1] at h
  obtain ⟨operation, text, -, rfl⟩ := Transcript.carry_failed h
  rfl

theorem recordResult_error {p : Player} {name : Option String} {value : Value} {e : Error}
    (h : (p.recordResult name value).2 = .error e) : e.isStructural = false := by
  obtain ⟨-, rfl⟩ := Transcript.record_error h
  rfl

theorem failure?_error {verdict : Verdict} {prompt : Prompt} {message : Option String} {e : Error}
    (h : verdict.failure? prompt message = some e) : e.isStructural = false := by
  unfold Verdict.failure? at h
  split at h
  · cases h
  · cases h
    rfl

/-- **Why a task fails.** A failed task names the item that failed it: the items before it in the
flow end well, and the item, played next, ends with the task's error. That error is structural
just if the agent was asked for nothing while the item was played. Every error of resolving an
item is structural, and none of carrying a command out, of a denied assertion or of recording a
result is. -/
theorem run_failures {agent : Agent} {registry : Registry}
    (hr : Registry.build agent.actions = .ok registry) (script : Script) (config : Config)
    (path : Option String) (cleanups : List Cleanup) (takes : Nat → Bool) :
    let start := Player.new script config path (.ready agent cleanups) takes
    (∀ (i : Nat) (t : TaskState), start.run.1.tasks[i]? = some t → t.status = .error →
      ∃ step item error p, script.tasks[i]? = some t.task ∧ t.task.flow[step]? = some item ∧
        t.currentStep = some step ∧ t.error = some error ∧
        playFlow agent registry i 0 (t.task.flow.take step)
          ((start.turn agent registry i).opening i) = (p, .done ()) ∧
        ((p.atStep i step).playItem agent registry item).2 = .failed error ∧
        (error.isStructural = true ↔
          ((p.atStep i step).playItem agent registry item).1.issued = p.issued)) ∧
      (∀ (registry : Registry) (item : Item) (error : Error),
        (Step.resolve registry item).run.value = .error error → error.isStructural = true) ∧
      (∀ (p : Player) (agent : Agent) (command : Command) (error : Error),
        (p.carryOut agent command).2 = .failed error → error.isStructural = false) ∧
      (∀ (verdict : Verdict) (prompt : Prompt) (message : Option String) (error : Error),
        verdict.failure? prompt message = some error → error.isStructural = false) ∧
      ∀ (p : Player) (name : Option String) (value : Value) (error : Error),
        (p.recordResult name value).2 = .error error → error.isStructural = false := by
  intro start
  refine ⟨?_, Step.resolve_structural, fun _ _ _ _ => carryOut_error,
    fun _ _ _ _ => failure?_error, fun _ _ _ _ => recordResult_error⟩
  intro i t ht herror
  rcases run_task hr script config path cleanups takes ht with
    ⟨task, turns, htask, hturns, rfl⟩ | ⟨task, rfl⟩
  · obtain ⟨step, turn, error, hturn, hfailed, hafter⟩ := TaskState.after_failed herror
    obtain ⟨task', before, p, htask', hitem, hplay, heq, hend, hissued⟩ :=
      plays_turn agent registry script config path (.ready agent cleanups) takes hturns hturn
    obtain rfl := Option.some.inj (htask.symm.trans htask')
    rw [hafter]
    refine ⟨step, turn.item, error, p, htask, hitem, rfl, rfl, hplay, hend.trans hfailed, ?_⟩
    have hby : turn.FailedBy start.results.sink error := by
      rw [heq] at hfailed ⊢
      exact Transcript.turn_failed hfailed
    have hstep : ∀ e, turn.step = .error e → e.isStructural = true := by
      rw [heq]
      exact Step.resolve_structural registry turn.item
    rw [hby.isStructural_iff hstep, hissued]
    cases turn.operation? <;> simp
  · cases herror

/-- Tasks that fail for the agent, for an item that is none, and for the agent again. -/
def mishaps : Script where
  target := none
  tasks := [
    ⟨"script", [[("javascript", .str "go()")]], true⟩,
    ⟨"unknown", [[("sleep", .ofNat 5)], [("fly", .str "home")], [("ai", .str "look")]], true⟩,
    ⟨"refused", [[("recordToReport", .str "here")], [("ai", .str "look")]], false⟩]

theorem run_failures_mishaps :
    Registry.build Agent.idle.actions = .ok .empty ∧
    let start := Player.new mishaps ⟨"", false, ""⟩ none (.ready .idle []) fun _ => true
    (start.run.1.tasks.map fun t => (t.currentStep, t.error.map Error.isStructural)) =
        [(some 0, some false), (some 1, some true), (some 1, some false)] ∧
      ∀ (i : Nat) (t : TaskState), start.run.1.tasks[i]? = some t → t.status = .error →
        ∃ step item error p, mishaps.tasks[i]? = some t.task ∧ t.task.flow[step]? = some item ∧
          t.currentStep = some step ∧ t.error = some error ∧
          playFlow .idle .empty i 0 (t.task.flow.take step)
            ((start.turn .idle .empty i).opening i) = (p, .done ()) ∧
          ((p.atStep i step).playItem .idle .empty item).2 = .failed error ∧
          (error.isStructural = true ↔
            ((p.atStep i step).playItem .idle .empty item).1.issued = p.issued) := by
  have hr : Registry.build Agent.idle.actions = .ok .empty := rfl
  obtain ⟨hfailed, -⟩ := run_failures hr mishaps ⟨"", false, ""⟩ none [] fun _ => true
  exact ⟨hr, by decide +kernel, hfailed⟩

end Player

end Runbook
