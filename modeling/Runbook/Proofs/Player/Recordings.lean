/-
What a run records.

The results of a run are the recordings of its turns, put in one after the other; a recording
without a name is numbered by those before it in the whole run. Which turns record is read off
each of them: a step that yielded a value, if its command is one whose result is kept. What is
recorded is the answer of the agent (`Operation.Records`). Of the turns that fail only a denied
assertion records.
-/
import Runbook.Proofs.Player.Follow
import Runbook.Proofs.Step.Structural

namespace Runbook

open Recording (keyed isUnnamed)

/-! ## Answers -/

namespace Operation

/-- What an answer of the agent is recorded as, for a step that gives its result a name or none. A
value that is asked for is recorded as it is, with a name or without; so is what planning or an
action comes to, but under a name only. Of an assertion it is the verdict. -/
inductive Records : (operation : Operation) → operation.Answer → Option String → Value → Prop
  | act {prompt : String} {options : Object} (name : String) (answer : Value) :
      Records (.act prompt options) answer (some name) answer
  | call {action : String} {param : Value} (name : String) (answer : Value) :
      Records (.call action param) answer (some name) answer
  | extract {kind : Extraction} {prompt : Value} {options : Object} (name : Option String)
      (answer : Value) : Records (.extract kind prompt options) answer name answer
  | javascript {script : String} (name : Option String) (answer : Value) :
      Records (.javascript script) answer name answer
  | assertion {prompt : Prompt} {message : Option String} {options : Object}
      (name : Option String) (verdict : Verdict) :
      Records (.assertion prompt message options) verdict name (.obj [
        ("pass", .bool verdict.pass),
        ("thought", Value.ofOption (verdict.thought.map .str)),
        ("message", Value.ofOption (verdict.message.map .str))])

/-- It is what the step yields, if that is kept. -/
theorem records_iff {operation : Operation} {answer : operation.Answer} {name : Option String}
    {value : Value} : operation.Records answer name value ↔
      (operation.yield answer).value = some value ∧ operation.policy.keeps name = true := by
  constructor
  · intro h
    cases h <;> exact ⟨rfl, rfl⟩
  · rintro ⟨hyield, hkeeps⟩
    cases operation with
    | act prompt options =>
      obtain ⟨name, rfl⟩ := Option.isSome_iff_exists.mp hkeeps
      cases hyield
      exact .act name _
    | call action param =>
      obtain ⟨name, rfl⟩ := Option.isSome_iff_exists.mp hkeeps
      cases hyield
      exact .call name _
    | extract kind prompt options =>
      cases hyield
      exact .extract name _
    | javascript script =>
      cases hyield
      exact .javascript name _
    | assertion prompt message options =>
      cases hyield
      exact .assertion name answer
    | waitFor prompt options => cases hyield
    | report title content => cases hyield

end Operation

namespace Transcript

/-- The results after some turns are their recordings, and the next number is the count of those
without a name. -/
theorem results_eq (sink : Sink) (ts : List Turn) :
    (results sink ts).values = Fields.ofEntries (keyed (recordings ts)) ∧
      (results sink ts).unnamed = (recordings ts).countP isUnnamed :=
  ⟨Results.values_after sink (recordings ts), Results.unnamed_after sink (recordings ts)⟩

end Transcript

namespace Turn

variable {t : Turn} {e : Error}

/-- Which turns record, and what: a step that yielded a value, under its own name if it has one. -/
theorem recording?_eq_some_iff {name : Option String} {value : Value} :
    t.recording? = some ⟨name, value⟩ ↔ ∃ step failure, t.step = .ok step ∧
      t.carried = .done ⟨some value, failure⟩ ∧ name = step.name ∧
        (step.command.policy = .always ∨
          step.command.policy = .whenNamed ∧ step.name.isSome = true) := by
  obtain ⟨item, resolved, carried, kept⟩ := t
  unfold recording?
  constructor
  · intro h
    cases resolved with
    | error e => cases h
    | ok step =>
      cases carried with
      | failed e => cases h
      | hung => cases h
      | crashed => cases h
      | done yield =>
        obtain ⟨_ | v, failure⟩ := yield
        · cases h
        simp only [recordingOf] at h
        split at h
        · next halways =>
          cases h
          exact ⟨step, failure, rfl, rfl, rfl, .inl halways⟩
        · next hnamed hname =>
          cases h
          exact ⟨step, failure, rfl, rfl, hname.symm, .inr ⟨hnamed, by rw [hname]; rfl⟩⟩
        · cases h
        · cases h
  · rintro ⟨step, failure, rfl, rfl, rfl, halways | ⟨hnamed, hsome⟩⟩
    · simp only [recordingOf, halways]
    · obtain ⟨name, hname⟩ := Option.isSome_iff_exists.mp hsome
      simp only [recordingOf, hnamed, hname]

/-- A denied assertion, whose verdict is recorded before it fails. -/
def Denied (t : Turn) (e : Error) : Prop :=
  ∃ step prompt message options, ∃ verdict : Verdict, t.step = .ok step ∧
    step.command = .ask (.assertion prompt message options) ∧ verdict.pass = false ∧
      e = .assertionFailed (verdict.complaint prompt message) ∧
        t.recording? = some ⟨step.name, verdict.toValue⟩

/-- With the results in memory only a denied assertion both fails and records. -/
theorem FailedBy.recording (h : t.FailedBy .memory e)
    (hstep : ∀ e, t.step = .error e → e.isStructural = true) :
    (t.recording? = none ∧ ∀ text, e ≠ .assertionFailed text) ∨ t.Denied e := by
  cases h with
  | unresolved hresolved =>
    refine .inl ⟨?_, ?_⟩
    · simp only [recording?, hresolved, recordingOf]
    · rintro text rfl
      cases hstep _ hresolved
  | refused hok hcommand hcarried =>
    refine .inl ⟨?_, ?_⟩
    · simp only [recording?, hok, hcarried, recordingOf]
    · rintro text ⟨⟩
  | unwritten hok hpolicy hsink hkept => exact absurd rfl hsink
  | denied hok hcommand hpass hrecording =>
    exact .inr ⟨_, _, _, _, _, hok, hcommand, hpass, rfl, hrecording⟩

end Turn

namespace Transcript

variable {agent : Agent} {registry : Registry} {sink : Sink} {before : List Turn} {item : Item}

/-- Carrying a command out yields a value exactly if the agent answers. -/
theorem carry_done_some_iff {asked : List Operation} {command : Command} {value : Value} :
    (∃ failure, carry agent asked command = .done ⟨some value, failure⟩) ↔
      ∃ operation answer, command = .ask operation ∧
        (agent.respond asked operation).outcome = .value answer ∧
        (operation.yield answer).value = some value := by
  constructor
  · rintro ⟨failure, h⟩
    cases command with
    | pause micros => cases h
    | ask operation =>
      change operation.ending (agent.respond asked operation).outcome = _ at h
      cases hout : (agent.respond asked operation).outcome with
      | value answer =>
        rw [hout, Operation.ending, Ending.done.injEq] at h
        exact ⟨operation, answer, rfl, hout, by rw [h]⟩
      | failure text =>
        simp only [hout, Operation.ending] at h
        split at h <;> cases h
      | never => rw [hout] at h; cases h
      | crash => rw [hout] at h; cases h
  · rintro ⟨operation, answer, rfl, hout, hvalue⟩
    refine ⟨(operation.yield answer).failure, ?_⟩
    rw [carry, hout, Operation.ending, ← hvalue]

/-- The recording of a turn is the answer that the agent gave in it. -/
theorem turn_recording? {name : Option String} {value : Value} :
    let t := turn agent registry sink before item
    t.recording? = some ⟨name, value⟩ ↔ ∃ step operation answer, t.step = .ok step ∧
      step.command = .ask operation ∧
      (agent.respond (operations before) operation).outcome = .value answer ∧
      name = step.name ∧ operation.Records answer name value := by
  intro t
  have hkeeps (command : Command) (name : Option String) : (command.policy = .always ∨
      command.policy = .whenNamed ∧ name.isSome = true) ↔ command.policy.keeps name = true := by
    cases command.policy <;> simp [ResultPolicy.keeps]
  have hcarried (step : Step) (hok : t.step = .ok step) :
      t.carried = carry agent (operations before) step.command := by
    have hresolved : (Step.resolve registry item).run.value = .ok step := hok
    show (turn agent registry sink before item).carried = _
    rw [turn_of_ok hresolved]
  rw [Turn.recording?_eq_some_iff]
  constructor
  · rintro ⟨step, failure, hok, hdone, rfl, hpolicy⟩
    rw [hcarried step hok] at hdone
    obtain ⟨operation, answer, hcommand, hout, hvalue⟩ := carry_done_some_iff.mp ⟨failure, hdone⟩
    rw [hkeeps, hcommand] at hpolicy
    exact ⟨step, operation, answer, hok, hcommand, hout, rfl,
      Operation.records_iff.mpr ⟨hvalue, hpolicy⟩⟩
  · rintro ⟨step, operation, answer, hok, hcommand, hout, rfl, hrecords⟩
    obtain ⟨hvalue, hpolicy⟩ := Operation.records_iff.mp hrecords
    obtain ⟨failure, hdone⟩ := carry_done_some_iff.mpr ⟨operation, answer, hcommand, hout, hvalue⟩
    refine ⟨step, failure, hok, (hcarried step hok).trans hdone, rfl, ?_⟩
    rw [hkeeps, hcommand]
    exact hpolicy

end Transcript

/-! ## Runs -/

namespace Player

/-- **What a run records.** Its results are the recordings of its turns, in their order. A turn
records what its step yields if that is always kept, or is kept under a name and has one; and this
is what the agent answered to the operation of the step, knowing the operations of the turns before.
If the results stay in memory then a turn that fails records nothing, save a denied assertion, which
records its verdict. -/
theorem run_results {agent : Agent} {registry : Registry}
    (hr : Registry.build agent.actions = .ok registry) (script : Script) (config : Config)
    (path : Option String) (cleanups : List Cleanup) (takes : Nat → Bool) :
    let start := Player.new script config path (.ready agent cleanups) takes
    let account := start.account agent registry
    start.run.1.results.values =
        Fields.ofEntries (keyed (Transcript.recordings account.flatten)) ∧
      Transcript.Sequential agent registry start.results.sink script.tasks account ∧
      (∀ t ∈ account.flatten, ∀ name value, t.recording? = some ⟨name, value⟩ ↔
        ∃ step failure, t.step = .ok step ∧ t.carried = .done ⟨some value, failure⟩ ∧
          name = step.name ∧ (step.command.policy = .always ∨
            step.command.policy = .whenNamed ∧ step.name.isSome = true)) ∧
      (∀ (i j : Nat) (turns : List Turn) (t : Turn), account[i]? = some turns →
        turns[j]? = some t → ∀ name value, t.recording? = some ⟨name, value⟩ ↔
          ∃ step operation answer, t.step = .ok step ∧ step.command = .ask operation ∧
            (agent.respond (Transcript.operations ((account.take i).flatten ++ turns.take j))
              operation).outcome = .value answer ∧
            name = step.name ∧ operation.Records answer name value) ∧
      (config.persist = false → ∀ t ∈ account.flatten, ∀ e, t.ending = .failed e →
        (t.recording? = none ∧ ∀ text, e ≠ .assertionFailed text) ∨ t.Denied e) := by
  intro start account
  have hsequential := account_sequential start agent registry
  obtain ⟨hfollows, -⟩ := run_follows hr script config path cleanups takes
  refine ⟨?_, hsequential, fun t _ name value => Turn.recording?_eq_some_iff, ?_, ?_⟩
  · rw [hfollows.results]
    exact (Transcript.results_eq _ _).1
  · intro i j turns t hturns ht name value
    obtain ⟨task, item, -, -, rfl⟩ := hsequential.turn_eq i j turns t hturns ht
    exact Transcript.turn_recording?
  · intro hmemory t ht e hfailed
    obtain ⟨before, item, rfl⟩ := hsequential.mem_flatten ht
    have hsink : start.results.sink = .memory := by
      change (if config.persist then Sink.file takes else Sink.memory) = .memory
      rw [hmemory]
      rfl
    rw [hsink] at hfailed ⊢
    refine (Transcript.turn_failed hfailed).recording ?_
    exact fun e => Step.resolve_structural registry item e

end Player

/-- An agent that reads what it is told to read and denies or refuses everything else. -/
def Agent.sceptic : Agent where
  actions := []
  respond := fun
    | _, .extract _ prompt _ => ⟨[], .value prompt⟩
    | _, .javascript script => ⟨[], .value (.str script)⟩
    | _, .assertion .. => ⟨[], .value { pass := false }⟩
    | _, .act .. | _, .waitFor .. | _, .report .. | _, .call .. => .fail "no"
  destroy _ := .fail "no"
  slot := .vacant
  report _ := none

namespace Player

/-- Four tasks for the sceptic: a failed assertion is tolerated, a note is not taken, and a named
result is read anew before the third task fails. -/
def inspection : Script where
  target := none
  tasks := [
    ⟨"denied", [[("aiQuery", .str "rows")], [("aiString", .str "heading"), ("name", .str "title")],
      [("aiAssert", .str "no rows")], [("aiQuery", .str "footer")]], true⟩,
    ⟨"noted", [[("recordToReport", .str "here")], [("javascript", .str "go()")]], false⟩,
    ⟨"fatal", [[("aiString", .str "caption"), ("name", .str "title")], [("ai", .str "look")]],
      false⟩,
    ⟨"waiting", [[("aiQuery", .str "rows")]], true⟩]

theorem run_results_inspection :
    Registry.build Agent.sceptic.actions = .ok .empty ∧
    let start := Player.new inspection ⟨"", false, ""⟩ none (.ready .sceptic []) fun _ => true
    let account := start.account .sceptic .empty
    start.run.1.results.values = [("0", .str "rows"), ("title", .str "caption"),
        ("1", .obj [("pass", .bool false), ("thought", .null), ("message", .null)]),
        ("2", .str "go()")] ∧
      account.map List.length = [3, 2, 2] ∧
      start.run.1.results.values =
        Fields.ofEntries (keyed (Transcript.recordings account.flatten)) ∧
      ∀ t ∈ account.flatten, ∀ e, t.ending = .failed e →
        (t.recording? = none ∧ ∀ text, e ≠ .assertionFailed text) ∨ t.Denied e := by
  have hr : Registry.build Agent.sceptic.actions = .ok .empty := rfl
  obtain ⟨hvalues, -, -, -, hfailed⟩ :=
    run_results hr inspection ⟨"", false, ""⟩ none [] fun _ => true
  exact ⟨hr, rfl, by decide +kernel, hvalues, hfailed rfl⟩

end Player

end Runbook
