/-
How a run ends, task by task.

Tasks are played in order up to the first one that fails and is not to be
tolerated. `Settled` says how a played task stands: done at its last step,
or failed at the step that failed. `Stretch` carries that over a stretch of
tasks, with the states of the player between them, and `run_outcome` reads
the whole run off it.

On the way each level gets its induction, once for all properties of a
player: what items keep, a flow keeps, and so on up to all tasks
(`playFlow_keeps`, `playTask_keeps`, `playTasks_keeps`).
-/
import Runbook.Proofs.Player.Frame

namespace Runbook

namespace TaskState

/-- A task that ends the run: it failed and is not to be tolerated. -/
def Fatal (t : TaskState) : Prop := t.status = .error ∧ t.task.continueOnError = false

end TaskState

/-- The last step of a flow. -/
def lastStep? (flow : List Item) : Option Nat :=
  if flow.isEmpty then none else some (flow.length - 1)

namespace Player

/-- The player with the current step of a task moved. -/
def atStep (p : Player) (index step : Nat) : Player :=
  p.modifyTask index fun t => { t with currentStep := some step }

/-- The player as it begins a task. -/
def opening (p : Player) (index : Nat) : Player :=
  { p.setTask index .running none with currentTask := some index }

/-- A flow, whose items count from `first`, fails at a step: the items before
it end well, and the one of the step, played next, ends with the error. -/
def FailsAt (agent : Agent) (registry : Registry) (index first : Nat) (flow : List Item)
    (p : Player) (step : Nat) (error : Error) : Prop :=
  ∃ item q, flow[step]? = some item ∧
    playFlow agent registry index first (flow.take step) p = (q, .done ()) ∧
    ((q.atStep index (first + step)).playItem agent registry item).2 = .failed error

theorem FailsAt.lt_length {agent registry index first flow p step error}
    (h : FailsAt agent registry index first flow p step error) : step < flow.length := by
  obtain ⟨item, q, hitem, -⟩ := h
  exact (List.getElem?_eq_some_iff.mp hitem).1

/-! ## Flows -/

theorem atStep_steady (p : Player) (index step : Nat) : Steady p (p.atStep index step) := by
  constructor <;> rfl

theorem atStep_tasks (p : Player) (index step : Nat) : (p.atStep index step).tasks =
    p.tasks.modify index fun t => { t with currentStep := some step } := rfl

theorem playFlow_cons (agent : Agent) (registry : Registry) (index step : Nat) (item : Item)
    (rest : List Item) (p : Player) : playFlow agent registry index step (item :: rest) p =
      match (p.atStep index step).playItem agent registry item with
      | (p, .done _) => playFlow agent registry index (step + 1) rest p
      | stopped => stopped := rfl

/-- What every step of a flow keeps, the flow keeps, whether or not it gets to its end. -/
theorem playFlow_keeps {P : Player → Prop} {agent : Agent} {registry : Registry} {index : Nat}
    (hitem : ∀ {p : Player} (step : Nat) (item : Item), P p →
      P ((p.atStep index step).playItem agent registry item).1)
    (items : List Item) (first : Nat) {p : Player} (h : P p) :
    P (playFlow agent registry index first items p).1 := by
  induction items generalizing first p with
  | nil => exact h
  | cons item rest ih =>
    have played := hitem first item h
    rw [playFlow_cons]
    cases hplay : (p.atStep index first).playItem agent registry item with | mk q ending
    rw [hplay] at played
    cases ending with
    | done => exact ih (first + 1) played
    | failed e => exact played
    | hung => exact played
    | crashed => exact played

/-- A flow ends well at its last step, or fails at a step, its current one. -/
theorem playFlow_cases {agent : Agent} (ha : agent.Answers) (registry : Registry) (index : Nat) :
    ∀ (flow : List Item) (first : Nat) (p : Player),
      ∃ q, Steady p q ∧
        ((playFlow agent registry index first flow p = (q, .done ()) ∧
            q.tasks = p.tasks.modify index fun t =>
              { t with currentStep := ((lastStep? flow).map (first + ·)).or t.currentStep }) ∨
          ∃ step error, playFlow agent registry index first flow p = (q, .failed error) ∧
            (q.tasks = p.tasks.modify index fun t => { t with currentStep := some (first + step) }) ∧
            FailsAt agent registry index first flow p step error)
  | [], first, p => ⟨p, .refl p, .inl ⟨rfl, (List.modify_id index p.tasks).symm⟩⟩
  | item :: rest, first, p => by
    have still := playItem_still (p.atStep index first) agent registry item
    have back := playItem_returns ha (p.atStep index first) registry item
    rw [playFlow_cons]
    cases hplay : (p.atStep index first).playItem agent registry item with | mk p' ending
    rw [hplay] at still back
    have steady := (atStep_steady p index first).trans still.toSteady
    have tasks := still.tasks.trans (atStep_tasks p index first)
    rcases back with ⟨⟨⟩, rfl⟩ | ⟨error, rfl⟩
    · obtain ⟨q, hq, hrest⟩ := playFlow_cases ha registry index rest (first + 1) p'
      refine ⟨q, steady.trans hq, ?_⟩
      rcases hrest with ⟨hdone, htasks⟩ | ⟨step, error, hfail, htasks, item', r, hitem, hr, hlast⟩
      · refine .inl ⟨hdone, ?_⟩
        rw [htasks, tasks, List.modify_modify_eq]
        congr 1
        funext t
        cases rest with
        | nil => rfl
        | cons item' rest => simp [lastStep?]; omega
      · refine .inr ⟨step + 1, error, hfail, ?_, item', r, hitem, ?_, ?_⟩
        · rw [htasks, tasks, List.modify_modify_eq]
          congr 1
          funext t
          simp [Nat.add_comm, Nat.add_left_comm]
        · rw [List.take_succ_cons, playFlow_cons, hplay]
          exact hr
        · rw [Nat.add_right_comm] at hlast
          exact hlast
    · exact ⟨p', steady, .inr ⟨0, error, rfl, tasks, item, p, rfl, rfl, by rw [Nat.add_zero, hplay]⟩⟩

/-! ## Tasks -/

/-- How a task stands that was played, its flow from the player `p`: done, at
its last step, or failed, at the step that failed. -/
inductive Settled (agent : Agent) (registry : Registry) (index : Nat) (p : Player) : TaskState → Prop
  | done (task : Task) :
    Settled agent registry index p { task, status := .done, currentStep := lastStep? task.flow }
  | failed {task : Task} {step : Nat} {error : Error}
      (h : FailsAt agent registry index 0 task.flow p step error) :
    Settled agent registry index p
      { task, status := .error, currentStep := some step, error := some error }

namespace Settled

variable {agent : Agent} {registry : Registry} {index : Nat} {p : Player} {t : TaskState}

theorem ended (h : Settled agent registry index p t) : t.status = .done ∨ t.status = .error := by
  cases h with
  | done => exact .inl rfl
  | failed => exact .inr rfl

theorem error_iff (h : Settled agent registry index p t) : t.error.isSome ↔ t.status = .error := by
  cases h with
  | done => simp
  | failed => simp

theorem done_step (h : Settled agent registry index p t) (hd : t.status = .done) :
    t.currentStep = lastStep? t.task.flow := by
  cases h with
  | done => rfl
  | failed => cases hd

theorem failing_step (h : Settled agent registry index p t) (he : t.status = .error) :
    ∃ step error, t.currentStep = some step ∧ t.error = some error ∧ step < t.task.flow.length ∧
      FailsAt agent registry index 0 t.task.flow p step error := by
  cases h with
  | done => cases he
  | failed hfail => exact ⟨_, _, rfl, rfl, hfail.lt_length, hfail⟩

end Settled

theorem modify_eq_set_of_getElem? {α : Type} {l : List α} {i : Nat} {a : α} (h : l[i]? = some a)
    (f : α → α) : l.modify i f = l.set i (f a) := by
  apply List.ext_getElem?
  intro j
  by_cases hij : i = j
  · subst hij
    obtain ⟨hlt, rfl⟩ := List.getElem?_eq_some_iff.mp h
    simp [hlt]
  · simp [hij]

theorem playTask_eq (agent : Agent) (registry : Registry) (index : Nat) (task : Task) (p : Player) :
    playTask agent registry index task p =
      match playFlow agent registry index 0 task.flow (p.opening index) with
      | (p, .done _) => ((p.setTask index .done none).askReport agent, .done ())
      | (p, .failed e) => ((p.setTask index .error (some e)).askReport agent, .failed e)
      | stopped => stopped := rfl

/-- What the flow of a task has left, and its end keeps, the task has left. -/
theorem playTask_keeps {P : Player → Prop} {agent : Agent} {registry : Registry} {index : Nat}
    {task : Task} {p : Player}
    (hflow : P (playFlow agent registry index 0 task.flow (p.opening index)).1)
    (hend : ∀ {q : Player} (status : Status) (error : Option Error), P q →
      P ((q.setTask index status error).askReport agent)) :
    P (playTask agent registry index task p).1 := by
  rw [playTask_eq]
  cases hplay : playFlow agent registry index 0 task.flow (p.opening index) with | mk q ending
  rw [hplay] at hflow
  cases ending with
  | done => exact hend .done none hflow
  | failed e => exact hend .error (some e) hflow
  | hung => exact hflow
  | crashed => exact hflow

/-- What every task keeps, all of them keep, wherever the run ends. -/
theorem playTasks_keeps {P : Player → Prop} {agent : Agent} {registry : Registry}
    (htask : ∀ {p : Player} (index : Nat) (task : Task), P p →
      P (playTask agent registry index task p).1)
    (tasks : List Task) (index : Nat) {p : Player} (h : P p) :
    P (playTasks agent registry index tasks p).1 := by
  induction tasks generalizing index p with
  | nil => exact h
  | cons task rest ih =>
    have played := htask index task h
    rw [playTasks]
    cases hplay : playTask agent registry index task p with | mk q ending
    rw [hplay] at played
    cases ending with
    | done => exact ih (index + 1) played
    | failed e =>
      dsimp only
      split
      · exact ih (index + 1) played
      · exact played
    | hung => exact played
    | crashed => exact played

/-- A task in its turn is settled, and no other task is touched. -/
theorem playTask_cases {agent : Agent} (ha : agent.Answers) (registry : Registry) {index : Nat}
    {task : Task} {p : Player} (ht : p.tasks[index]? = some { task }) :
    ∃ q t, t.task = task ∧ Settled agent registry index (p.opening index) t ∧
      q.tasks = p.tasks.set index t ∧ q.currentTask = some index ∧
      ((t.status = .done ∧ playTask agent registry index task p = (q, .done ())) ∨
        ∃ error, t.status = .error ∧ playTask agent registry index task p = (q, .failed error)) := by
  obtain ⟨q, steady, hflow⟩ := playFlow_cases ha registry index task.flow 0 (p.opening index)
  have opened : (p.opening index).tasks =
      p.tasks.modify index fun t => { t with status := .running } := rfl
  rcases hflow with ⟨hplay, hq⟩ | ⟨step, error, hplay, hq, hfail⟩
  · refine ⟨(q.setTask index .done none).askReport agent, _, rfl, .done task, ?_,
      steady.currentTask, .inl ⟨rfl, ?_⟩⟩
    · change q.tasks.modify index (fun t => { t with status := .done }) = _
      rw [hq, opened, List.modify_modify_eq, List.modify_modify_eq, modify_eq_set_of_getElem? ht]
      simp
    · rw [playTask_eq, hplay]
  · refine ⟨(q.setTask index .error (some error)).askReport agent, _, rfl, .failed hfail, ?_,
      steady.currentTask, .inr ⟨error, rfl, ?_⟩⟩
    · change q.tasks.modify index (fun t => { t with status := .error, error := some error }) = _
      rw [hq, opened, List.modify_modify_eq, List.modify_modify_eq, modify_eq_set_of_getElem? ht]
      simp
    · rw [playTask_eq, hplay]

/-! ## Stretches of tasks -/

/-- What playing a stretch of tasks comes to, the first of them number
`before.length`: the tasks got to are `played`, the others wait. -/
structure Stretch (agent : Agent) (registry : Registry) (tasks : List Task) (p : Player)
    (before played : List TaskState) (q : Player) (e : Ending Unit) : Prop where
  tasks_eq : q.tasks = before ++ played ++ (tasks.drop played.length).map ({ task := · })
  length_le : played.length ≤ tasks.length
  currentTask_eq : q.currentTask =
    if played.isEmpty then p.currentTask else some (before.length + played.length - 1)
  settled : ∀ i t, played[i]? = some t → tasks[i]? = some t.task ∧
    Settled agent registry (before.length + i)
      ((playTasks agent registry before.length (tasks.take i) p).1.opening (before.length + i)) t
  tolerated : ∀ i t, played[i]? = some t → i + 1 < played.length → ¬ t.Fatal
  ending : (e = .done () ∧ played.length = tasks.length ∧ ∀ t ∈ played, ¬ t.Fatal) ∨
    ∃ error t, e = .failed error ∧ played.getLast? = some t ∧ t.Fatal

theorem Stretch.nil (agent : Agent) (registry : Registry) {p : Player} {before : List TaskState}
    (hp : p.tasks = before) : Stretch agent registry [] p before [] p (.done ()) where
  tasks_eq := by simpa using hp
  length_le := Nat.le_refl 0
  currentTask_eq := rfl
  settled _ _ h := by simp at h
  tolerated _ _ h := by simp at h
  ending := .inl ⟨rfl, rfl, by simp⟩

/-- A stretch that ends with its first task. -/
theorem Stretch.stop {agent : Agent} {registry : Registry} {tasks : List Task} {p q : Player}
    {before : List TaskState} {t : TaskState} {error : Error}
    (htasks : q.tasks = before ++ t :: tasks.map ({ task := · }))
    (hcurrent : q.currentTask = some before.length)
    (hsettled : Settled agent registry before.length (p.opening before.length) t)
    (hfatal : t.Fatal) :
    Stretch agent registry (t.task :: tasks) p before [t] q (.failed error) where
  tasks_eq := by simpa using htasks
  length_le := by simp
  currentTask_eq := by simpa using hcurrent
  settled i u h := by
    cases i with
    | zero =>
      simp only [List.getElem?_cons_zero, Option.some.injEq] at h
      subst h
      exact ⟨rfl, hsettled⟩
    | succ i => simp at h
  tolerated i u _ h := absurd h (by simp)
  ending := .inr ⟨error, t, rfl, rfl, hfatal⟩

/-- A stretch that goes on after its first task. -/
theorem Stretch.cons {agent : Agent} {registry : Registry} {tasks : List Task} {p q r : Player}
    {before played : List TaskState} {t : TaskState} {e : Ending Unit}
    (hnext : ∀ rest, playTasks agent registry before.length (t.task :: rest) p =
      playTasks agent registry (before.length + 1) rest q)
    (hsettled : Settled agent registry before.length (p.opening before.length) t)
    (hcurrent : q.currentTask = some before.length) (ht : ¬ t.Fatal)
    (h : Stretch agent registry tasks q (before ++ [t]) played r e) :
    Stretch agent registry (t.task :: tasks) p before (t :: played) r e where
  tasks_eq := by simpa using h.tasks_eq
  length_le := by simpa using h.length_le
  currentTask_eq := by
    rw [h.currentTask_eq]
    cases played with
    | nil => simpa using hcurrent
    | cons u played => simp; omega
  settled i u hu := by
    cases i with
    | zero =>
      simp only [List.getElem?_cons_zero, Option.some.injEq] at hu
      subst hu
      exact ⟨rfl, hsettled⟩
    | succ i =>
      have := h.settled i u hu
      simp only [List.length_append, List.length_singleton] at this
      rw [List.take_succ_cons, hnext, show before.length + (i + 1) = before.length + 1 + i by omega]
      exact this
  tolerated i u hu hi := by
    cases i with
    | zero =>
      simp only [List.getElem?_cons_zero, Option.some.injEq] at hu
      subst hu
      exact ht
    | succ i => exact h.tolerated i u hu (by simpa using hi)
  ending := by
    rcases h.ending with ⟨rfl, hlen, hall⟩ | ⟨error, u, rfl, hu, hfatal⟩
    · exact .inl ⟨rfl, by simpa using hlen, by simpa using ⟨ht, hall⟩⟩
    · refine .inr ⟨error, u, rfl, ?_, hfatal⟩
      cases played with
      | nil => simp at hu
      | cons v played => simpa using hu

theorem playTasks_stretch {agent : Agent} (ha : agent.Answers) (registry : Registry) :
    ∀ (tasks : List Task) (before : List TaskState) (p : Player),
      p.tasks = before ++ tasks.map ({ task := · }) →
      ∃ played q e, playTasks agent registry before.length tasks p = (q, e) ∧
        Stretch agent registry tasks p before played q e
  | [], before, p, hp => ⟨[], p, _, rfl, .nil agent registry (by simpa using hp)⟩
  | task :: tasks, before, p, hp => by
    have ht : p.tasks[before.length]? = some { task } := by rw [hp]; simp
    obtain ⟨q, t, rfl, hsettled, htasks, hcurrent, hend⟩ := playTask_cases ha registry ht
    rw [hp, List.set_append_right _ _ (Nat.le_refl _), Nat.sub_self, List.map_cons,
      List.set_cons_zero] at htasks
    -- What follows a task that does not end the run.
    have goOn : ¬ t.Fatal →
        (∀ rest, playTasks agent registry before.length (t.task :: rest) p =
          playTasks agent registry (before.length + 1) rest q) →
        ∃ played r e, playTasks agent registry before.length (t.task :: tasks) p = (r, e) ∧
          Stretch agent registry (t.task :: tasks) p before played r e := by
      intro hfatal hnext
      obtain ⟨played, r, e, hplay, h⟩ :=
        playTasks_stretch ha registry tasks (before ++ [t]) q (by simpa using htasks)
      rw [List.length_append, List.length_singleton] at hplay
      exact ⟨t :: played, r, e, (hnext tasks).trans hplay, .cons hnext hsettled hcurrent hfatal h⟩
    rcases hend with ⟨hdone, hplay⟩ | ⟨error, herror, hplay⟩
    · refine goOn (fun hfatal => ?_) (fun rest => by rw [playTasks, hplay])
      have := hfatal.1
      rw [hdone] at this
      cases this
    · cases hc : t.task.continueOnError with
      | true =>
        refine goOn (fun hfatal => ?_) (fun rest => by rw [playTasks, hplay]; simp [hc])
        have := hfatal.2
        rw [hc] at this
        cases this
      | false =>
        refine ⟨[t], q, .failed error, ?_, .stop htasks hcurrent hsettled ⟨herror, hc⟩⟩
        rw [playTasks, hplay]
        simp [hc]

/-! ## Runs -/

/-- The player when the turn of the task at a place comes, all tasks before it played. -/
def turn (p : Player) (agent : Agent) (registry : Registry) (index : Nat) : Player :=
  (playTasks agent registry 0 (p.script.tasks.take index) (p.ready agent)).1

/-- How a player stands that began as `start` and played the first `k` tasks of its script. -/
structure PlayedUpTo (agent : Agent) (registry : Registry) (start : Player) (k : Nat)
    (p : Player) : Prop where
  tasks_eq : p.tasks.map (·.task) = start.script.tasks
  le : k ≤ start.script.tasks.length
  ended : ∀ i t, p.tasks[i]? = some t → i < k → t.status = .done ∨ t.status = .error
  waiting : ∀ i t, p.tasks[i]? = some t → k ≤ i →
    t.status = .init ∧ t.currentStep = none ∧ t.error = none
  tolerated : ∀ i t, p.tasks[i]? = some t → i + 1 < k → t.status = .error →
    t.task.continueOnError = true
  stopped : k < start.script.tasks.length → ∃ i t, k = i + 1 ∧ p.tasks[i]? = some t ∧ t.Fatal
  error_iff : ∀ t ∈ p.tasks, t.error.isSome ↔ t.status = .error
  not_running : ∀ t ∈ p.tasks, t.status ≠ .running
  done_step : ∀ t ∈ p.tasks, t.status = .done → t.currentStep = lastStep? t.task.flow
  /-- The current step of a failed task is the one that failed, with the task's error. -/
  failing_step : ∀ i t, p.tasks[i]? = some t → t.status = .error →
    ∃ step error, t.currentStep = some step ∧ t.error = some error ∧
      step < t.task.flow.length ∧
      FailsAt agent registry i 0 t.task.flow ((start.turn agent registry i).opening i) step error
  currentTask_eq : p.currentTask = if k = 0 then none else some (k - 1)

theorem Stretch.playedUpTo {agent : Agent} {registry : Registry} {start q : Player}
    {played : List TaskState} {e : Ending Unit} (hcurrent : start.currentTask = none)
    (h : Stretch agent registry start.script.tasks (start.ready agent) [] played q e) :
    PlayedUpTo agent registry start played.length q := by
  have htasks := h.tasks_eq
  simp only [List.nil_append] at htasks
  -- A task is one of those that were played, or it waits.
  have split : ∀ i t, q.tasks[i]? = some t → (i < played.length ∧ played[i]? = some t) ∨
      (played.length ≤ i ∧ ∃ task, t = { task }) := by
    intro i t ht
    rw [htasks, List.getElem?_append] at ht
    split at ht
    · next hi => exact .inl ⟨hi, ht⟩
    · next hi =>
      rw [List.getElem?_map, Option.map_eq_some_iff] at ht
      obtain ⟨task, -, rfl⟩ := ht
      exact .inr ⟨Nat.le_of_not_lt hi, task, rfl⟩
  have settled : ∀ i t, played[i]? = some t →
      Settled agent registry i ((start.turn agent registry i).opening i) t := by
    intro i t ht
    simpa [turn] using (h.settled i t ht).2
  have member : ∀ t ∈ q.tasks, (∃ i p, Settled agent registry i p t) ∨ ∃ task, t = { task } := by
    intro t ht
    obtain ⟨i, hi⟩ := List.mem_iff_getElem?.mp ht
    rcases split i t hi with ⟨-, hplayed⟩ | ⟨-, htask⟩
    · exact .inl ⟨i, _, settled i t hplayed⟩
    · exact .inr htask
  constructor
  case tasks_eq =>
    have : played.map (·.task) = start.script.tasks.take played.length := by
      apply List.ext_getElem?
      intro i
      rw [List.getElem?_map, List.getElem?_take]
      cases hi : played[i]? with
      | none =>
        have := List.getElem?_eq_none_iff.mp hi
        simp only [Option.map_none]
        rw [if_neg (by omega)]
      | some t =>
        have hlt := (List.getElem?_eq_some_iff.mp hi).1
        simp [hlt, (h.settled i t hi).1]
    rw [htasks, List.map_append, this, List.map_map]
    simp [Function.comp_def]
  case le => exact h.length_le
  case ended =>
    intro i t ht hi
    rcases split i t ht with ⟨-, hplayed⟩ | ⟨hge, -⟩
    · exact (settled i t hplayed).ended
    · omega
  case waiting =>
    intro i t ht hi
    rcases split i t ht with ⟨hlt, -⟩ | ⟨-, task, rfl⟩
    · omega
    · exact ⟨rfl, rfl, rfl⟩
  case tolerated =>
    intro i t ht hi herror
    rcases split i t ht with ⟨-, hplayed⟩ | ⟨hge, -⟩
    · have hfatal := h.tolerated i t hplayed hi
      cases hc : t.task.continueOnError with
      | true => rfl
      | false => exact absurd ⟨herror, hc⟩ hfatal
    · omega
  case stopped =>
    intro hlt
    rcases h.ending with ⟨-, hlen, -⟩ | ⟨error, t, -, hlast, hfatal⟩
    · omega
    · rw [List.getLast?_eq_getElem?] at hlast
      have hpos := (List.getElem?_eq_some_iff.mp hlast).1
      refine ⟨played.length - 1, t, by omega, ?_, hfatal⟩
      rw [htasks, List.getElem?_append_left hpos, hlast]
  case error_iff =>
    intro t ht
    rcases member t ht with ⟨i, p, hsettled⟩ | ⟨task, rfl⟩
    · exact hsettled.error_iff
    · simp
  case not_running =>
    intro t ht hrunning
    rcases member t ht with ⟨i, p, hsettled⟩ | ⟨task, rfl⟩
    · rcases hsettled.ended with h | h <;> rw [h] at hrunning <;> cases hrunning
    · cases hrunning
  case done_step =>
    intro t ht hdone
    rcases member t ht with ⟨i, p, hsettled⟩ | ⟨task, rfl⟩
    · exact hsettled.done_step hdone
    · cases hdone
  case failing_step =>
    intro i t ht herror
    rcases split i t ht with ⟨-, hplayed⟩ | ⟨-, task, rfl⟩
    · exact (settled i t hplayed).failing_step herror
    · cases herror
  case currentTask_eq =>
    rw [h.currentTask_eq]
    have : (start.ready agent).currentTask = none := hcurrent
    cases played with
    | nil => simpa using this
    | cons t played => simp

/-- Only the tasks and the current one matter. -/
theorem PlayedUpTo.congr {agent : Agent} {registry : Registry} {start p q : Player} {k : Nat}
    (h : PlayedUpTo agent registry start k p) (htasks : q.tasks = p.tasks)
    (hcurrent : q.currentTask = p.currentTask) : PlayedUpTo agent registry start k q := by
  constructor
  case currentTask_eq => rw [hcurrent]; exact h.currentTask_eq
  case le => exact h.le
  all_goals rw [htasks]
  case tasks_eq => exact h.tasks_eq
  case ended => exact h.ended
  case waiting => exact h.waiting
  case tolerated => exact h.tolerated
  case stopped => exact h.stopped
  case error_iff => exact h.error_iff
  case not_running => exact h.not_running
  case done_step => exact h.done_step
  case failing_step => exact h.failing_step

/-- **How a first run ends.** If the agent answers every operation and its
actions make a registry, the run comes back with the player's status. The
tasks up to some place `k` were played and the others wait; `k` is short of
the end only after a failed task that is not to be tolerated. The run ends
in error if there is such a task, and otherwise every task was played. -/
theorem run_outcome {agent : Agent} (ha : agent.Answers) {registry : Registry}
    (hr : Registry.build agent.actions = .ok registry) (script : Script) (config : Config)
    (path : Option String) (cleanups : List Cleanup) (takes : Nat → Bool) :
    let start := Player.new script config path (.ready agent cleanups) takes
    ∃ q k, start.run = (q, .finished q.status) ∧ PlayedUpTo agent registry start k q ∧
      (q.status = .error ↔ ∃ t ∈ q.tasks, t.Fatal) ∧
      (q.status ≠ .error → q.status = .done ∧ k = script.tasks.length) := by
  intro start
  obtain ⟨played, q, e, hplay, h⟩ := playTasks_stretch ha registry script.tasks []
    (start.ready agent) rfl
  have hrun := run_eq (p := start) rfl rfl hr
  rw [List.length_nil] at hplay
  rw [show start.script.tasks = script.tasks from rfl, hplay] at hrun
  have hplayed : PlayedUpTo agent registry start played.length q := h.playedUpTo rfl
  have finished : ∀ status, PlayedUpTo agent registry start played.length
      (q.finish ⟨agent, registry, cleanups⟩ status) := fun status =>
    hplayed.congr (finish_tasks q _ status) (finish_currentTask q _ status)
  rcases h.ending with ⟨rfl, hlen, hall⟩ | ⟨error, t, rfl, hlast, hfatal⟩
  · refine ⟨_, played.length, ?_, finished .done, ?_, fun _ => ⟨finish_status .., hlen⟩⟩
    · rw [hrun, finish_status]
    · have htasks := h.tasks_eq
      rw [hlen, List.drop_length, List.map_nil, List.append_nil, List.nil_append] at htasks
      rw [finish_status, finish_tasks, htasks]
      exact ⟨nofun, fun ⟨t, ht, hfatal⟩ => absurd hfatal (hall t ht)⟩
  · refine ⟨_, played.length, ?_, finished .error, ?_, fun hne => absurd (finish_status ..) hne⟩
    · rw [hrun, finish_status]
    · rw [finish_status, finish_tasks, h.tasks_eq]
      have ht : t ∈ played := List.mem_of_getLast? hlast
      exact ⟨fun _ => ⟨t, by simp [ht], hfatal⟩, fun _ => rfl⟩

/-- Five tasks for an agent that carries nothing out: notes and pauses need
no agent to succeed, the first failure is tolerated and the second is not. -/
def errand : Script where
  target := none
  tasks := [
    ⟨"tolerated", [[("sleep", .ofNat 5)], [("javascript", .str "go()")]], true⟩,
    ⟨"noted", [[("recordToReport", .str "here")]], false⟩,
    ⟨"empty", [], false⟩,
    ⟨"fatal", [[("ai", .str "look")], [("sleep", .ofNat 5)]], false⟩,
    ⟨"waiting", [[("ai", .str "look")]], true⟩]

theorem run_outcome_errand :
    Agent.idle.Answers ∧ Registry.build Agent.idle.actions = .ok .empty ∧
    let start := Player.new errand ⟨"", false, ""⟩ none (.ready .idle []) fun _ => true
    ∃ q k, start.run = (q, .finished q.status) ∧ PlayedUpTo .idle .empty start k q ∧
      (q.status = .error ↔ ∃ t ∈ q.tasks, t.Fatal) ∧
      (q.status ≠ .error → q.status = .done ∧ k = errand.tasks.length) :=
  ⟨Agent.idle_answers, rfl, run_outcome Agent.idle_answers rfl errand ⟨"", false, ""⟩ none [] _⟩

example : ((Player.new errand ⟨"", false, ""⟩ none (.ready .idle []) fun _ => true).run.1.tasks.map
    fun t => (t.status, t.currentStep)) =
    [(.error, some 1), (.done, some 0), (.done, none), (.error, some 0), (.init, none)] := by
  decide +kernel

end Player

end Runbook
