/-
A player follows its transcript.

What decides how a run goes on is what the agent was asked and what was recorded. `Follows` says
that a player has asked and recorded what some turns say and nothing else; most of what a player
does is `Quiet` and leaves that alone. Playing an item adds its turn (`playItem_follows`), so
playing a flow adds the turns of the flow, and a whole run asks, records and leaves its tasks as
its transcript says (`run_follows`). Nothing is assumed of the agent's answers.
-/
import Runbook.Proofs.Player.Outcome
import Runbook.Proofs.Player.Transcript

namespace Runbook

open Transcript (operations)

/-- The operation that the agent is asked for, if that is what happens. -/
def Event.asked? : Event → Option Operation
  | .asked operation => some operation
  | _ => none

/-- How a task stands after its turns. -/
def TaskState.after (task : Task) (turns : List Turn) : TaskState :=
  let step := lastStep? (turns.map Turn.item)
  match Transcript.ending turns with
  | .done _ => { task, status := .done, currentStep := step }
  | .failed e => { task, status := .error, currentStep := step, error := some e }
  | .hung | .crashed => { task, status := .running, currentStep := step }

namespace Player

variable {agent : Agent} {registry : Registry} {sink : Sink} {p q : Player} {before : List Turn}

/-- The operations that were issued to the agent, in order. -/
def issued (p : Player) : List Operation := p.trace.filterMap Event.asked?

/-- Nothing was asked of the agent and nothing recorded in between. -/
structure Quiet (p q : Player) : Prop where
  asked : q.asked = p.asked
  issued : q.issued = p.issued
  results : q.results = p.results

namespace Quiet

theorem refl (p : Player) : Quiet p p := ⟨rfl, rfl, rfl⟩

theorem trans {r : Player} (h : Quiet p q) (h' : Quiet q r) : Quiet p r :=
  ⟨h'.asked.trans h.asked, h'.issued.trans h.issued, h'.results.trans h.results⟩

end Quiet

theorem issued_note (p : Player) (events : List Event) :
    (p.note events).issued = p.issued ++ events.filterMap Event.asked? := List.filterMap_append

theorem note_quiet {events : List Event} (h : events.filterMap Event.asked? = []) (p : Player) :
    Quiet p (p.note events) := by
  refine ⟨rfl, ?_, rfl⟩
  rw [issued_note, h, List.append_nil]

theorem warn_quiet (p : Player) (warnings : List Warning) : Quiet p (p.warn warnings) :=
  ⟨rfl, rfl, rfl⟩

/-! ## Tips, tasks and cleanups -/

theorem ownListener_asked (slot : TipSlot) (text : String) :
    (ownListener slot text).filterMap Event.asked? = [] := by
  unfold ownListener
  split <;> rfl

theorem emit_quiet (p : Player) (before : TipSlot) (text : String) :
    Quiet p (p.emit before text) := by
  have tipped : (Event.tipped text :: ownListener before text).filterMap Event.asked? = [] :=
    ownListener_asked before text
  unfold emit
  split
  · split
    · have remembered : Quiet p { p with tip := some text } := ⟨rfl, rfl, rfl⟩
      exact remembered.trans (note_quiet tipped _)
    · exact note_quiet tipped p
  · exact note_quiet (ownListener_asked _ text) p

theorem signal_quiet (p : Player) (before : TipSlot) (s : Signal) :
    Quiet p (p.signal before s) := by
  cases s with
  | performed operation => exact note_quiet rfl p
  | closed => exact note_quiet rfl p
  | tip text => exact emit_quiet p before text

theorem signals_quiet (before : TipSlot) (ss : List Signal) (p : Player) :
    Quiet p (p.signals before ss) :=
  List.foldlRecOn ss _ (.refl p) fun q h s _ => h.trans (signal_quiet q before s)

theorem atStep_quiet (p : Player) (index step : Nat) : Quiet p (p.atStep index step) :=
  ⟨rfl, rfl, rfl⟩

theorem setTask_quiet (p : Player) (index : Nat) (status : Status) (error : Option Error) :
    Quiet p (p.setTask index status error) := by
  have modified : Quiet p (p.modifyTask index fun t => { t with status, error := error.or t.error }) :=
    ⟨rfl, rfl, rfl⟩
  refine modified.trans (note_quiet ?_ _)
  rfl

theorem opening_quiet (p : Player) (index : Nat) : Quiet p (p.opening index) :=
  (setTask_quiet p index .running none).trans ⟨rfl, rfl, rfl⟩

theorem askReport_quiet (p : Player) (agent : Agent) : Quiet p (p.askReport agent) :=
  ⟨rfl, rfl, rfl⟩

theorem cleanUp_quiet (p : Player) (agent : Agent) (c : Cleanup) :
    Quiet p (p.cleanUp agent c) := by
  have tips : Quiet (p.note [.cleanup c.name])
      (c.tips.foldl (fun p text => p.emit agent.slot text) (p.note [.cleanup c.name])) :=
    List.foldlRecOn c.tips _ (.refl _) fun q h text _ => h.trans (emit_quiet q agent.slot text)
  exact ((note_quiet rfl p).trans tips).trans (warn_quiet _ _)

theorem finish_quiet (p : Player) (ready : Ready) (status : Status) :
    Quiet p (p.finish ready status) := by
  let decided := { p with status, tip := none }
  have cleanUps : Quiet decided (ready.cleanups.foldl (fun p c => p.cleanUp ready.agent c) decided) :=
    List.foldlRecOn ready.cleanups _ (.refl _) fun q h c _ => h.trans (cleanUp_quiet q ready.agent c)
  exact ⟨cleanUps.asked, cleanUps.issued, cleanUps.results⟩

/-! ## Steps -/

/-- The player has asked and recorded what the turns say, and nothing else. -/
structure Follows (sink : Sink) (p : Player) (turns : List Turn) : Prop where
  asked : p.asked = operations turns
  issued : p.issued = operations turns
  results : p.results = Transcript.results sink turns

theorem Follows.quiet {turns : List Turn} (h : Follows sink p turns) (hq : Quiet p q) :
    Follows sink q turns where
  asked := hq.asked.trans h.asked
  issued := hq.issued.trans h.issued
  results := hq.results.trans h.results

/-- A command asks for its operation, if it has one, and records nothing. -/
theorem carryOut_eq (p : Player) (agent : Agent) (command : Command) :
    (p.carryOut agent command).2 = Transcript.carry agent p.asked command ∧
      (p.carryOut agent command).1.asked = p.asked ++ command.operation?.toList ∧
      (p.carryOut agent command).1.issued = p.issued ++ command.operation?.toList ∧
      (p.carryOut agent command).1.results = p.results := by
  cases command with
  | pause micros =>
    have hnone : (Command.pause micros).operation?.toList = [] := rfl
    rw [hnone, List.append_nil, List.append_nil]
    exact ⟨rfl, rfl, rfl, rfl⟩
  | ask operation =>
    have hquiet := signals_quiet agent.slot (agent.respond p.asked operation).signals
      { p.note [.asked operation] with asked := p.asked ++ [operation] }
    exact ⟨rfl, hquiet.asked, hquiet.issued.trans (issued_note p _), hquiet.results⟩

/-- What is kept of a step is its recording. -/
theorem keep_eq (p : Player) (step : Step) (yield : Yield) :
    p.keep step yield =
      match Turn.recordingOf (.ok step) (.done yield) with
      | some x => ((p.recordResult x.name x.value).1,
          (p.recordResult x.name x.value).2.map fun _ => ())
      | none => (p, .ok ()) := by
  obtain ⟨value, failure⟩ := yield
  cases value with
  | none => rfl
  | some value =>
    simp only [keep, Turn.recordingOf]
    cases step.command.policy with
    | always => rfl
    | never => rfl
    | whenNamed => cases step.name <;> rfl

theorem endingOf_eq (step : Except Error Step) (item : Item) (yield : Yield)
    (kept : Except Error Unit) :
    endingOf yield kept = Turn.ending ⟨item, step, .done yield, kept⟩ := by
  obtain ⟨value, failure⟩ := yield
  cases kept <;> cases failure <;> rfl

/-- Playing the step of an item adds the item's turn. -/
theorem playStep_follows (agent : Agent) (h : Follows sink p before) {item : Item} {step : Step}
    (hstep : (Step.resolve registry item).run.value = .ok step) :
    Follows sink (p.playStep agent step).1
        (before ++ [Transcript.turn agent registry sink before item]) ∧
      (p.playStep agent step).2 = (Transcript.turn agent registry sink before item).ending := by
  rw [Transcript.turn_of_ok hstep]
  obtain ⟨hcarry, hasked, hissued, hresults⟩ := carryOut_eq p agent step.command
  rw [h.asked] at hcarry hasked
  rw [h.issued] at hissued
  rw [h.results] at hresults
  unfold playStep
  cases hplay : p.carryOut agent step.command with | mk q carried
  rw [hplay] at hcarry hasked hissued hresults
  rw [← hcarry]
  dsimp only at hasked hissued hresults ⊢
  have asks : ∀ carried kept, operations (before ++ [⟨item, .ok step, carried, kept⟩]) =
      operations before ++ step.command.operation?.toList := by
    intro carried kept
    rw [Transcript.operations_append, Transcript.operations_singleton]
    rfl
  -- Nothing is recorded of a step that does not end well.
  have unrecorded : ∀ carried, Turn.recordingOf (.ok step) carried = none →
      Follows sink q (before ++ [⟨item, .ok step, carried, .ok ()⟩]) := by
    intro carried hnone
    refine ⟨hasked.trans (asks _ _).symm, hissued.trans (asks _ _).symm, ?_⟩
    rw [Transcript.results_concat, Turn.recording?, hnone]
    exact hresults
  cases carried with
  | failed e => exact ⟨unrecorded _ rfl, rfl⟩
  | hung => exact ⟨unrecorded _ rfl, rfl⟩
  | crashed => exact ⟨unrecorded _ rfl, rfl⟩
  | done yield =>
    dsimp only
    rw [keep_eq, ← endingOf_eq]
    cases hrecording : Turn.recordingOf (.ok step) (.done yield) with
    | none => exact ⟨unrecorded _ hrecording, rfl⟩
    | some x =>
      refine ⟨⟨hasked.trans (asks _ _).symm, hissued.trans (asks _ _).symm, ?_⟩, ?_⟩
      · rw [Transcript.results_concat, Turn.recording?, hrecording]
        exact congrArg (fun r : Results => (r.record x.name x.value).1) hresults
      · rw [Transcript.keep, ← hresults]
        rfl

/-- **Playing an item adds its turn.** -/
theorem playItem_follows (agent : Agent) (registry : Registry) (h : Follows sink p before)
    (item : Item) :
    Follows sink (p.playItem agent registry item).1
        (before ++ [Transcript.turn agent registry sink before item]) ∧
      (p.playItem agent registry item).2 =
        (Transcript.turn agent registry sink before item).ending := by
  have hwarned := h.quiet (warn_quiet p (Step.resolve registry item).run.warnings)
  unfold playItem
  dsimp only
  cases hstep : (Step.resolve registry item).run.value with
  | error e =>
    rw [Transcript.turn_of_error hstep]
    refine ⟨⟨?_, ?_, ?_⟩, rfl⟩
    · simpa [Turn.operation?] using hwarned.asked
    · simpa [Turn.operation?] using hwarned.issued
    · rw [Transcript.results_concat]
      exact hwarned.results
  | ok step => exact playStep_follows agent hwarned hstep

/-! ## Flows -/

/-- Playing a flow adds its turns, and moves the current step to the last of them. -/
theorem playFlow_follows (agent : Agent) (registry : Registry) (index : Nat) (items : List Item)
    (first : Nat) (h : Follows sink p before) :
    let turns := Transcript.flow agent registry sink before items
    Follows sink (playFlow agent registry index first items p).1 (before ++ turns) ∧
      (playFlow agent registry index first items p).2 = Transcript.ending turns ∧
      (playFlow agent registry index first items p).1.tasks = p.tasks.modify index fun t =>
        { t with
          currentStep := ((lastStep? (turns.map Turn.item)).map (first + ·)).or t.currentStep } := by
  induction items generalizing first p before with
  | nil =>
    intro turns
    have hturns : turns = [] := rfl
    rw [hturns, List.append_nil]
    exact ⟨h, rfl, (List.modify_id index p.tasks).symm⟩
  | cons item rest ih =>
    intro turns
    obtain ⟨hitem, hending⟩ :=
      playItem_follows agent registry (h.quiet (atStep_quiet p index first)) item
    have htasks := (playItem_still (p.atStep index first) agent registry item).tasks
    rw [atStep_tasks] at htasks
    have hturns : turns = Transcript.flow agent registry sink before (item :: rest) := rfl
    rw [Transcript.flow_cons] at hturns
    generalize Transcript.turn agent registry sink before item = t at hitem hending hturns
    rw [playFlow_cons]
    cases hplay : (p.atStep index first).playItem agent registry item with | mk p' e
    rw [hplay] at hitem hending htasks
    obtain rfl : e = t.ending := hending
    by_cases hgo : Transcript.flowGoesOn t = true
    · rw [if_pos hgo] at hturns
      rw [Transcript.flowGoesOn_iff] at hgo
      obtain ⟨hfollows, hend, hsteps⟩ := ih (first + 1) hitem
      rw [hturns, hgo, Transcript.ending_cons hgo]
      refine ⟨by simpa using hfollows, hend, ?_⟩
      rw [hsteps, htasks, List.modify_modify_eq]
      congr 1
      funext u
      cases Transcript.flow agent registry sink (before ++ [t]) rest with
      | nil => rfl
      | cons t' ts =>
        have hlast : first + 1 + ts.length = first + (ts.length + 1) := by omega
        simp [lastStep?, hlast]
    · rw [if_neg hgo] at hturns
      rw [hturns, Transcript.ending_singleton]
      cases hend : t.ending with
      | done => exact absurd (Transcript.flowGoesOn_iff.mpr hend) hgo
      | failed e => exact ⟨hitem, rfl, htasks⟩
      | hung => exact ⟨hitem, rfl, htasks⟩
      | crashed => exact ⟨hitem, rfl, htasks⟩

/-! ## Tasks -/

/-- Playing a task in its turn adds its turns, and it stands as they say. -/
theorem playTask_follows (agent : Agent) (registry : Registry) {index : Nat} {task : Task}
    (h : Follows sink p before) (ht : p.tasks[index]? = some { task }) :
    let turns := Transcript.flow agent registry sink before task.flow
    Follows sink (playTask agent registry index task p).1 (before ++ turns) ∧
      (playTask agent registry index task p).2 = Transcript.ending turns ∧
      (playTask agent registry index task p).1.tasks =
        p.tasks.set index (TaskState.after task turns) := by
  intro turns
  obtain ⟨hfollows, hending, htasks⟩ :=
    playFlow_follows agent registry index task.flow 0 (h.quiet (opening_quiet p index))
  have hopening : (p.opening index).tasks =
      p.tasks.modify index fun t => { t with status := .running } := rfl
  rw [hopening, List.modify_modify_eq] at htasks
  rw [playTask_eq]
  cases hplay : playFlow agent registry index 0 task.flow (p.opening index) with | mk q e
  rw [hplay] at hfollows hending htasks
  obtain rfl : e = Transcript.ending turns := hending
  -- The task is closed if its flow ended well or failed, and left as it is otherwise.
  have closed : ∀ status error,
      Follows sink ((q.setTask index status error).askReport agent) (before ++ turns) :=
    fun status error =>
      hfollows.quiet ((setTask_quiet q index status error).trans (askReport_quiet _ agent))
  have closedTasks : ∀ status error, ((q.setTask index status error).askReport agent).tasks =
      p.tasks.set index
        { task, status, currentStep := lastStep? (turns.map Turn.item), error } := by
    intro status error
    change q.tasks.modify index (fun t => { t with status, error := error.or t.error }) = _
    rw [htasks, List.modify_modify_eq, modify_eq_set_of_getElem? ht]
    simp [turns]
  have openTasks : q.tasks = p.tasks.set index
      { task, status := .running, currentStep := lastStep? (turns.map Turn.item) } := by
    rw [htasks, modify_eq_set_of_getElem? ht]
    simp [turns]
  unfold TaskState.after
  cases hend : Transcript.ending turns with
  | done => exact ⟨closed .done none, rfl, closedTasks .done none⟩
  | failed e => exact ⟨closed .error (some e), rfl, closedTasks .error (some e)⟩
  | hung => exact ⟨hfollows, rfl, openTasks⟩
  | crashed => exact ⟨hfollows, rfl, openTasks⟩

/-- Playing tasks adds their turns, and the tasks that were played stand as their turns say. -/
theorem playTasks_follows (agent : Agent) (registry : Registry) (ts : List Task)
    (done later : List TaskState) (h : Follows sink p before)
    (ht : p.tasks = done ++ ts.map ({ task := · }) ++ later) :
    let account := Transcript.tasks agent registry sink before ts
    Follows sink (playTasks agent registry done.length ts p).1 (before ++ account.flatten) ∧
      (playTasks agent registry done.length ts p).1.tasks =
        done ++ List.zipWith TaskState.after ts account ++
          (ts.drop account.length).map ({ task := · }) ++ later := by
  induction ts generalizing p before done with
  | nil =>
    intro account
    have haccount : account = [] := rfl
    have hplay : playTasks agent registry done.length [] p = (p, .done ()) := rfl
    rw [haccount, hplay]
    exact ⟨by simpa using h, by simpa using ht⟩
  | cons task rest ih =>
    intro account
    have hturn : p.tasks[done.length]? = some { task } := by rw [ht]; simp
    obtain ⟨hfollows, hending, htasks⟩ := playTask_follows agent registry h hturn
    rw [ht, List.append_assoc, List.set_append_right _ _ (Nat.le_refl _), Nat.sub_self,
      List.map_cons, List.cons_append, List.set_cons_zero] at htasks
    have haccount : account = Transcript.tasks agent registry sink before (task :: rest) := rfl
    rw [Transcript.tasks_cons] at haccount
    generalize Transcript.flow agent registry sink before task.flow = turns at *
    cases hq : playTask agent registry done.length task p with | mk q e
    rw [hq] at hfollows hending htasks
    obtain rfl : e = Transcript.ending turns := hending
    have hplay : playTasks agent registry done.length (task :: rest) p =
        if Transcript.runGoesOn task turns then playTasks agent registry (done.length + 1) rest q
        else (q, Transcript.ending turns) := by
      rw [playTasks, hq, Transcript.runGoesOn]
      cases Transcript.ending turns <;> rfl
    rw [hplay]
    by_cases hgo : Transcript.runGoesOn task turns = true
    · rw [if_pos hgo] at haccount ⊢
      obtain ⟨hrest, hrestTasks⟩ :=
        ih (done ++ [TaskState.after task turns]) hfollows (by simpa using htasks)
      rw [List.length_append, List.length_singleton] at hrest hrestTasks
      rw [haccount]
      refine ⟨by simpa using hrest, ?_⟩
      rw [hrestTasks]
      simp
    · rw [if_neg hgo] at haccount ⊢
      rw [haccount]
      refine ⟨by simpa using hfollows, ?_⟩
      simpa using htasks

/-! ## Runs -/

theorem new_follows (script : Script) (config : Config) (path : Option String) (setup : Setup)
    (takes : Nat → Bool) (agent : Agent) :
    let start := Player.new script config path setup takes
    Follows start.results.sink (start.ready agent) [] :=
  ⟨rfl, rfl, rfl⟩

/-- The turns of a first run, task by task. -/
def account (start : Player) (agent : Agent) (registry : Registry) : List (List Turn) :=
  Transcript.tasks agent registry start.results.sink [] start.script.tasks

theorem account_sequential (start : Player) (agent : Agent) (registry : Registry) :
    Transcript.Sequential agent registry start.results.sink start.script.tasks
      (start.account agent registry) :=
  Transcript.tasks_sequential agent registry start.results.sink start.script.tasks

/-- The turns of a task are those of its flow, after the turns of the tasks before it. -/
theorem account_getElem? {start : Player} {i : Nat} {turns : List Turn}
    (h : (start.account agent registry)[i]? = some turns) :
    ∃ task, start.script.tasks[i]? = some task ∧
      turns = Transcript.flow agent registry start.results.sink
        ((start.account agent registry).take i).flatten task.flow := by
  obtain ⟨task, htask, hturns⟩ := Transcript.tasks_getElem? h
  exact ⟨task, htask, hturns⟩

/-- **A run follows its transcript.** Whatever the agent does, the operations that are issued and
the results that are recorded in a first run are those of its turns, and each task stands as its
own turns say; the tasks without a turn wait. -/
theorem run_follows {agent : Agent} {registry : Registry}
    (hr : Registry.build agent.actions = .ok registry) (script : Script) (config : Config)
    (path : Option String) (cleanups : List Cleanup) (takes : Nat → Bool) :
    let start := Player.new script config path (.ready agent cleanups) takes
    let account := start.account agent registry
    Follows start.results.sink start.run.1 account.flatten ∧
      start.run.1.tasks = List.zipWith TaskState.after script.tasks account ++
        (script.tasks.drop account.length).map ({ task := · }) := by
  intro start account
  have hready := new_follows script config path (.ready agent cleanups) takes agent
  obtain ⟨hfollows, htasks⟩ :=
    playTasks_follows agent registry script.tasks [] [] hready (List.append_nil _).symm
  have hrun := run_eq (p := start) rfl rfl hr
  rw [List.length_nil] at hfollows htasks
  cases hplay : playTasks agent registry 0 script.tasks (start.ready agent) with | mk q e
  rw [hplay] at hfollows htasks
  rw [List.append_nil, List.nil_append] at htasks
  rw [show start.script.tasks = script.tasks from rfl, hplay] at hrun
  have finished : ∀ status,
      Follows start.results.sink (q.finish ⟨agent, registry, cleanups⟩ status) account.flatten ∧
        (q.finish ⟨agent, registry, cleanups⟩ status).tasks =
          List.zipWith TaskState.after script.tasks account ++
            (script.tasks.drop account.length).map ({ task := · }) := by
    intro status
    rw [finish_tasks]
    exact ⟨hfollows.quiet (finish_quiet q _ status), htasks⟩
  rw [hrun]
  cases e with
  | done => exact finished .done
  | failed e => exact finished .error
  | hung => exact ⟨hfollows, htasks⟩
  | crashed => exact ⟨hfollows, htasks⟩

/-- A task of a run stands as its turns say, or it waits. -/
theorem run_task {agent : Agent} {registry : Registry}
    (hr : Registry.build agent.actions = .ok registry) (script : Script) (config : Config)
    (path : Option String) (cleanups : List Cleanup) (takes : Nat → Bool) {i : Nat}
    {t : TaskState} :
    let start := Player.new script config path (.ready agent cleanups) takes
    start.run.1.tasks[i]? = some t →
      (∃ task turns, script.tasks[i]? = some task ∧
        (start.account agent registry)[i]? = some turns ∧ t = TaskState.after task turns) ∨
      ∃ task, t = { task } := by
  intro start ht
  obtain ⟨-, htasks⟩ := run_follows hr script config path cleanups takes
  rw [htasks, List.getElem?_append] at ht
  split at ht
  · rw [List.getElem?_zipWith] at ht
    split at ht
    · next task turns htask hturns =>
      exact .inl ⟨task, turns, htask, hturns, (Option.some.inj ht).symm⟩
    · cases ht
  · rw [List.getElem?_map, Option.map_eq_some_iff] at ht
    obtain ⟨task, -, rfl⟩ := ht
    exact .inr ⟨task, rfl⟩

/-! ## The player at a turn -/

/-- When the turn of a task comes, the player has done what the tasks before it say. -/
theorem turn_follows (agent : Agent) (registry : Registry) (script : Script) (config : Config)
    (path : Option String) (setup : Setup) (takes : Nat → Bool) (i : Nat) :
    let start := Player.new script config path setup takes
    Follows start.results.sink (start.turn agent registry i)
      ((start.account agent registry).take i).flatten := by
  intro start
  have hready := new_follows script config path setup takes agent
  have htasks : (start.ready agent).tasks = [] ++ (script.tasks.take i).map ({ task := · }) ++
      (script.tasks.drop i).map ({ task := · }) := by
    rw [List.nil_append, ← List.map_append, List.take_append_drop]
    rfl
  have h := (playTasks_follows agent registry (script.tasks.take i) [] _ hready htasks).1
  rwa [Transcript.tasks_take] at h

/-- **Every turn is played in its place.** The player that played the tasks before, and in the
turn's own task the items before, plays the turn's item: it ends as the turn does and asks the
agent for what the turn says. -/
theorem plays_turn (agent : Agent) (registry : Registry) (script : Script) (config : Config)
    (path : Option String) (setup : Setup) (takes : Nat → Bool) {i j : Nat} {turns : List Turn}
    {t : Turn} :
    let start := Player.new script config path setup takes
    (start.account agent registry)[i]? = some turns → turns[j]? = some t →
      ∃ task before p, script.tasks[i]? = some task ∧ task.flow[j]? = some t.item ∧
        playFlow agent registry i 0 (task.flow.take j) ((start.turn agent registry i).opening i) =
          (p, .done ()) ∧
        t = Transcript.turn agent registry start.results.sink before t.item ∧
        ((p.atStep i j).playItem agent registry t.item).2 = t.ending ∧
        ((p.atStep i j).playItem agent registry t.item).1.issued =
          p.issued ++ t.operation?.toList := by
  intro start hturns ht
  obtain ⟨task, htask, rfl⟩ := account_getElem? hturns
  have hj := (List.getElem?_eq_some_iff.mp ht).1
  obtain ⟨item, hitem, hturn⟩ := Transcript.flow_getElem? ht
  obtain rfl : t.item = item := congrArg Turn.item hturn
  have hopening := (turn_follows agent registry script config path setup takes i).quiet
    (opening_quiet _ i)
  obtain ⟨hfollows, hending, -⟩ :=
    playFlow_follows agent registry i (task.flow.take j) 0 hopening
  rw [Transcript.flow_take] at hfollows hending
  rw [Transcript.ending_take_flow hj] at hending
  cases hplay : playFlow agent registry i 0 (task.flow.take j)
    ((start.turn agent registry i).opening i) with | mk p e
  rw [hplay] at hfollows hending
  obtain rfl : e = .done () := hending
  obtain ⟨hplayed, hend⟩ :=
    playItem_follows agent registry (hfollows.quiet (atStep_quiet p i j)) t.item
  refine ⟨task, _, p, htask, hitem, hplay, hturn, ?_, ?_⟩
  · exact hend.trans (congrArg Turn.ending hturn).symm
  · rw [hplayed.issued, Transcript.operations_append, ← hfollows.issued,
      Transcript.operations_singleton]
    exact congrArg (fun u : Turn => p.issued ++ u.operation?.toList) hturn.symm

end Player

end Runbook
