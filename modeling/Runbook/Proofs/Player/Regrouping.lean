/-
Where one task ends and the next begins is nothing to a run.

Of tasks none of which tolerates a failure, what is played is their items in a row up to the first
that does not end well, however the items are put into tasks (`tasks_strict`). Numbers of unnamed
results count over the whole run and a failure ends it, so nothing of a task's own is carried from
one item to the next. Two scripts with the same items in a row ask for the same, record the same
and end in the same way (`run_regrouped`).
-/
import Runbook.Agent.Rehearsal
import Runbook.Proofs.Player.Calls
import Runbook.Proofs.Player.Recordings

namespace Runbook

namespace Script

/-- All items of a script in a row. -/
def items (script : Script) : List Item := script.tasks.flatMap Task.flow

/-- No task of the script may fail without ending the run. -/
def Strict (script : Script) : Prop := ∀ task ∈ script.tasks, task.continueOnError = false

instance (script : Script) : Decidable script.Strict :=
  inferInstanceAs (Decidable (∀ task ∈ script.tasks, task.continueOnError = false))

end Script

namespace Ending

/-- The error, if the piece of the run failed. -/
def error? {α : Type} : Ending α → Option Error
  | .failed e => some e
  | .done _ | .hung | .crashed => none

end Ending

namespace TaskState

/-- The error of a task that failed. -/
def failure? (t : TaskState) : Option Error := if t.status = .error then t.error else none

theorem failure?_after (task : Task) (turns : List Turn) :
    (TaskState.after task turns).failure? = (Transcript.ending turns).error? := by
  unfold after
  cases Transcript.ending turns <;> rfl

theorem failure?_waiting (ts : List Task) :
    (ts.map ({ task := · })).filterMap failure? = [] := by
  rw [List.filterMap_map]
  exact List.filterMap_eq_nil_iff.mpr fun _ _ => rfl

end TaskState

/-! ## Turns in a row -/

namespace Transcript

variable {agent : Agent} {registry : Registry} {sink : Sink} {before : List Turn} {ts : List Task}

theorem ending_append {turns : List Turn} (h : ending turns = .done ()) (others : List Turn) :
    ending (turns ++ others) = ending others := by
  cases others with
  | nil => rw [List.append_nil, h, ending_nil]
  | cons t ts => simp [ending, List.getLast?_append, List.getLast?_cons]

/-- The second part of some items is played if all of the first end well. -/
theorem flow_append {before : List Turn} {first : List Item}
    (h : ending (flow agent registry sink before first) = .done ()) (second : List Item) :
    flow agent registry sink before (first ++ second) =
      flow agent registry sink before first ++
        flow agent registry sink (before ++ flow agent registry sink before first) second := by
  induction first generalizing before with
  | nil => exact congrArg (flow agent registry sink · second) (List.append_nil before).symm
  | cons item rest ih =>
    rw [flow_cons] at h
    rw [List.cons_append, flow_cons, flow_cons]
    generalize turn agent registry sink before item = t at h ⊢
    by_cases hgo : flowGoesOn t = true
    · rw [if_pos hgo] at h
      rw [if_pos hgo, if_pos hgo, ih ((ending_cons (flowGoesOn_iff.mp hgo) _).symm.trans h),
        List.append_assoc before [t]]
      rfl
    · rw [if_neg hgo, ending_singleton] at h
      exact absurd (flowGoesOn_iff.mpr h) hgo

theorem flow_append_of_stop {before : List Turn} {first : List Item}
    (h : ending (flow agent registry sink before first) ≠ .done ()) (second : List Item) :
    flow agent registry sink before (first ++ second) = flow agent registry sink before first := by
  induction first generalizing before with
  | nil => exact absurd ending_nil h
  | cons item rest ih =>
    rw [flow_cons] at h
    rw [List.cons_append, flow_cons, flow_cons]
    generalize turn agent registry sink before item = t at h ⊢
    by_cases hgo : flowGoesOn t = true
    · rw [if_pos hgo, ending_cons (flowGoesOn_iff.mp hgo)] at h
      rw [if_pos hgo, if_pos hgo, ih h]
    · rw [if_neg hgo, if_neg hgo]

theorem runGoesOn_iff {task : Task} (h : task.continueOnError = false) {turns : List Turn} :
    runGoesOn task turns = true ↔ ending turns = .done () := by
  unfold runGoesOn
  cases ending turns <;> simp [h]

/-- Tasks that tolerate nothing have the turns of all their items in a row, and one of them failed
if the last turn of all did. -/
theorem tasks_strict {before : List Turn} (h : ∀ task ∈ ts, task.continueOnError = false) :
    let account := tasks agent registry sink before ts
    let turns := flow agent registry sink before (ts.flatMap Task.flow)
    account.flatten = turns ∧
      (List.zipWith TaskState.after ts account).filterMap TaskState.failure? =
        (ending turns).error?.toList := by
  induction ts generalizing before with
  | nil => exact ⟨rfl, rfl⟩
  | cons task rest ih =>
    simp only [List.mem_cons, forall_eq_or_imp] at h
    obtain ⟨htask, hrest⟩ := h
    intro account turns
    have haccount : account = tasks agent registry sink before (task :: rest) := rfl
    have hturns : turns = flow agent registry sink before (task.flow ++ rest.flatMap Task.flow) := by
      rw [← List.flatMap_cons]
    rw [tasks_cons] at haccount
    dsimp only at haccount
    by_cases hgo : ending (flow agent registry sink before task.flow) = .done ()
    · rw [if_pos ((runGoesOn_iff htask).mpr hgo)] at haccount
      rw [flow_append hgo] at hturns
      obtain ⟨hflatten, hfailures⟩ := ih hrest
      rw [haccount, hturns, ending_append hgo, List.zipWith_cons_cons, List.filterMap_cons,
        TaskState.failure?_after, hgo, List.flatten_cons]
      exact ⟨congrArg _ hflatten, hfailures⟩
    · rw [if_neg fun hgoes => hgo ((runGoesOn_iff htask).mp hgoes)] at haccount
      rw [flow_append_of_stop hgo] at hturns
      rw [haccount, hturns]
      refine ⟨List.flatten_singleton, ?_⟩
      rw [List.zipWith_cons_cons, List.zipWith_nil_right, List.filterMap_cons,
        TaskState.failure?_after]
      cases (ending (flow agent registry sink before task.flow)).error? <;> rfl

end Transcript

namespace Player

variable {agent : Agent} {registry : Registry} {sink : Sink} {p : Player} {before : List Turn}

/-- The errors of the tasks that failed, in the order of the tasks. -/
def failures (p : Player) : List Error := p.tasks.filterMap TaskState.failure?

/-! ## The status while it plays -/

theorem playFlow_status (agent : Agent) (registry : Registry) (index step : Nat)
    (items : List Item) (p : Player) :
    (playFlow agent registry index step items p).1.status = p.status :=
  playFlow_keeps (P := fun q => q.status = p.status)
    (fun step item h => (playItem_still (atStep _ index step) agent registry item).status.trans h)
    items step rfl

theorem playTask_status (agent : Agent) (registry : Registry) (index : Nat) (task : Task)
    (p : Player) : (playTask agent registry index task p).1.status = p.status :=
  playTask_keeps (P := fun q => q.status = p.status)
    (playFlow_status agent registry index 0 task.flow (p.opening index)) fun _ _ h => h

theorem playTasks_status (agent : Agent) (registry : Registry) (index : Nat) (ts : List Task)
    (p : Player) : (playTasks agent registry index ts p).1.status = p.status :=
  playTasks_keeps (P := fun q => q.status = p.status)
    (fun index task h => (playTask_status agent registry index task _).trans h) ts index rfl

/-! ## Tasks that tolerate nothing -/

/-- Playing such tasks ends as the last of all their turns does. -/
theorem playTasks_ending (agent : Agent) (registry : Registry) {ts : List Task}
    (hstrict : ∀ task ∈ ts, task.continueOnError = false) (done : List TaskState)
    (h : Follows sink p before) (ht : p.tasks = done ++ ts.map ({ task := · })) :
    (playTasks agent registry done.length ts p).2 =
      Transcript.ending (Transcript.flow agent registry sink before (ts.flatMap Task.flow)) := by
  induction ts generalizing p before done with
  | nil => rfl
  | cons task rest ih =>
    simp only [List.mem_cons, forall_eq_or_imp] at hstrict
    obtain ⟨htask, hrest⟩ := hstrict
    have hturn : p.tasks[done.length]? = some { task } := by rw [ht]; simp
    obtain ⟨hfollows, hending, htasks⟩ := playTask_follows agent registry h hturn
    rw [ht, List.set_append_right _ _ (Nat.le_refl _), Nat.sub_self, List.map_cons,
      List.set_cons_zero] at htasks
    rw [playTasks, List.flatMap_cons]
    cases hplay : playTask agent registry done.length task p with | mk q e
    rw [hplay] at hfollows hending htasks
    dsimp only at hending
    by_cases hgo : e = .done ()
    · rw [hgo] at hending
      rw [Transcript.flow_append hending.symm, Transcript.ending_append hending.symm, hgo]
      have hlater := ih hrest (done ++ [TaskState.after task
        (Transcript.flow agent registry sink before task.flow)]) hfollows (by simpa using htasks)
      rwa [List.length_append, List.length_singleton] at hlater
    · rw [Transcript.flow_append_of_stop fun hdone => hgo (hending.trans hdone), ← hending]
      cases e with
      | done => exact absurd rfl hgo
      | failed e => simp only [htask, Bool.false_eq_true, if_false]
      | hung => rfl
      | crashed => rfl

/-! ## Runs -/

/-- The status in which a run leaves its player. -/
def RunEnd.status : RunEnd → Status
  | .finished status => status
  | .hung | .crashed => .running

theorem concluded_status {ready : Ready} (h : p.status = .running) (e : RunEnd) :
    (p.concluded ready e).status = e.status := by
  cases e with
  | finished status => exact finish_status p ready status
  | hung => exact h
  | crashed => exact h

theorem concluded_setupError (p : Player) (ready : Ready) (e : RunEnd) :
    (p.concluded ready e).setupError = p.setupError := by
  cases e with
  | finished status =>
    exact (cleanUps_still ready.agent ready.cleanups { p with status, tip := none }).setupError
  | hung => rfl
  | crashed => rfl

/-- What can be told of a run whose turns are in a row. -/
structure Tells (sink : Sink) (turns : List Turn) (outcome : Player × RunEnd) : Prop where
  issued : outcome.1.issued = Transcript.operations turns
  results : outcome.1.results = Transcript.results sink turns
  runEnd : outcome.2 = runEnd (Transcript.ending turns)
  status : outcome.1.status = outcome.2.status
  failures : outcome.1.failures = (Transcript.ending turns).error?.toList
  setupError : outcome.1.setupError = none

/-- A run of a script that tolerates nothing tells of its items in a row and of nothing else. -/
theorem run_tells {script : Script} (hstrict : script.Strict) (config : Config)
    (path : Option String) {setup : Setup} {ready : Ready} (hready : setup.outcome = .ok ready)
    (takes : Nat → Bool) :
    let start := Player.new script config path setup takes
    Tells start.results.sink
      (Transcript.flow ready.agent ready.registry start.results.sink [] script.items) start.run := by
  intro start
  obtain ⟨rfl, hr⟩ := Setup.eq_of_outcome hready
  obtain ⟨hfollows, htasks⟩ := run_follows hr script config path ready.cleanups takes
  obtain ⟨hflatten, hfailures⟩ :=
    @Transcript.tasks_strict ready.agent ready.registry start.results.sink _ [] hstrict
  have hending := playTasks_ending ready.agent ready.registry hstrict []
    (new_follows script config path (.ready ready.agent ready.cleanups) takes ready.agent) rfl
  have hstatus := playTasks_status ready.agent ready.registry 0 script.tasks
    (start.ready ready.agent)
  have hrun := run_accepted (p := start) rfl hready
  constructor
  case issued => rw [hfollows.issued]; exact congrArg Transcript.operations hflatten
  case results => rw [hfollows.results]; exact congrArg (Transcript.results _) hflatten
  case runEnd => rw [hrun]; exact congrArg Player.runEnd hending
  case status => rw [hrun]; exact concluded_status hstatus _
  case failures =>
    rw [failures, htasks, List.filterMap_append]
    rw [TaskState.failure?_waiting, List.append_nil]
    exact hfailures
  case setupError =>
    rw [hrun, concluded_setupError, playTasks_kept]
    rfl

/-- **Tasks are only groups of items.** Two scripts that tolerate no failure and have the same
items in a row, played on the same agent, ask the agent for the same operations, record the same
results under the same keys and end in the same way. Where that is an error, it is that of setting
up, or one task of each failed, and both with the same error. -/
theorem run_regrouped {script script' : Script} (hstrict : script.Strict)
    (hstrict' : script'.Strict) (hitems : script.items = script'.items) (config : Config)
    (path path' : Option String) (setup : Setup) (takes : Nat → Bool) :
    let one := (Player.new script config path setup takes).run
    let other := (Player.new script' config path' setup takes).run
    one.1.issued = other.1.issued ∧ one.1.results = other.1.results ∧ one.2 = other.2 ∧
      one.1.status = other.1.status ∧ one.1.setupError = other.1.setupError ∧
      one.1.failures = other.1.failures ∧
      (one.1.status = .error → one.1.setupError = none → ∃ e, one.1.failures = [e]) := by
  intro one other
  cases hready : setup.outcome with
  | ok ready =>
    have htells : Tells _ _ one := run_tells hstrict config path hready takes
    have htells' : Tells _ _ other := run_tells hstrict' config path' hready takes
    rw [← hitems] at htells'
    have hend := htells.runEnd.trans htells'.runEnd.symm
    refine ⟨htells.issued.trans htells'.issued.symm, htells.results.trans htells'.results.symm,
      hend, ?_, htells.setupError.trans htells'.setupError.symm,
      htells.failures.trans htells'.failures.symm, fun herror _ => ?_⟩
    · rw [htells.status, htells'.status, hend]
    · rw [htells.status, htells.runEnd] at herror
      rw [htells.failures]
      generalize Transcript.ending _ = e at herror ⊢
      cases e with
      | failed e => exact ⟨e, rfl⟩
      | done => cases herror
      | hung => cases herror
      | crashed => cases herror
  | error e =>
    have hrefused : one = _ := run_refused rfl hready
    have hrefused' : other = _ := run_refused rfl hready
    have hfailures : one.1.failures = [] := by
      rw [hrefused]
      exact TaskState.failure?_waiting script.tasks
    have hfailures' : other.1.failures = [] := by
      rw [hrefused']
      exact TaskState.failure?_waiting script'.tasks
    rw [hfailures, hfailures', hrefused, hrefused']
    exact ⟨rfl, rfl, rfl, rfl, rfl, rfl, fun _ hnone => by cases hnone⟩

/-- An errand in three tasks, one of which has nothing to do. -/
def grouped : Script where
  target := none
  tasks := [
    ⟨"look", [[("aiQuery", .str "rows")], [("aiString", .str "heading"), ("name", .str "title")]],
      false⟩,
    ⟨"rest", [], false⟩,
    ⟨"check", [[("aiQuery", .str "footer")], [("aiAssert", .str "no rows")],
      [("aiQuery", .str "rows")]], false⟩]

/-- The same items, each in a task of its own. -/
def scattered : Script where
  target := none
  tasks := grouped.items.map fun item => ⟨"step", [item], false⟩

theorem run_regrouped_errand :
    grouped.Strict ∧ scattered.Strict ∧ grouped.items = scattered.items ∧
    let one := (Player.new grouped ⟨"", false, ""⟩ none (.ready .sceptic []) fun _ => true).run
    let other := (Player.new scattered ⟨"", false, ""⟩ none (.ready .sceptic []) fun _ => true).run
    one.1.issued.map Operation.method = ["aiQuery", "aiString", "aiQuery", "aiAssert"] ∧
      Fields.keys one.1.results.values = ["0", "title", "1", "2"] ∧
      one.1.status = .error ∧ one.1.failures.length = 1 ∧
      one.1.issued = other.1.issued ∧ one.1.results = other.1.results ∧
      one.1.status = other.1.status ∧ one.1.failures = other.1.failures := by
  have hgrouped : grouped.Strict := by decide
  have hscattered : scattered.Strict := by decide
  have hitems : grouped.items = scattered.items := rfl
  obtain ⟨hissued, hresults, -, hstatus, -, hfailures, -⟩ :=
    run_regrouped hgrouped hscattered hitems ⟨"", false, ""⟩ none none (.ready .sceptic [])
      fun _ => true
  exact ⟨hgrouped, hscattered, hitems, by decide +kernel, by decide +kernel, by decide +kernel,
    by decide +kernel, hissued, hresults, hstatus, hfailures⟩

end Player

end Runbook
