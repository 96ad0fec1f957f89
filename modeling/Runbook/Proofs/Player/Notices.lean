/-
What an observer is told.

The observer is told of a task twice: as it begins and as it ends. What it
could see each time is the list of all tasks, and `Standing` says how these
stand when the tasks before some place have ended, one is perhaps being played
and the others wait. `Told` is kept by everything a run does: a player has told
of just the tasks it has got to, in their order, and each notice came at the
right moment. `run_notices` reads that off a whole run, for every agent.
-/
import Runbook.Proofs.Player.Calls

namespace Runbook

/-- What an observer is told of: a task by its place, all tasks being as listed. -/
structure Notice where
  index : Nat
  tasks : List TaskState

/-- What the observer is told, if that is what happens. -/
def Event.notice? : Event → Option Notice
  | .notified index tasks => some ⟨index, tasks⟩
  | _ => none

/-- The task is over, with an error just if it failed. -/
def TaskState.Ended (t : TaskState) : Prop :=
  (t.status = .done ∧ t.error = none) ∨ (t.status = .error ∧ t.error.isSome = true)

/-- How the tasks of a script stand when the first `k` have ended, and the next is being played
if `playing` says so. -/
structure Standing (script : Script) (k : Nat) (playing : Bool) (tasks : List TaskState) :
    Prop where
  tasks_eq : tasks.map (·.task) = script.tasks
  le : k + playing.toNat ≤ tasks.length
  ended : ∀ i t, tasks[i]? = some t → i < k → t.Ended
  running : ∀ t, tasks[k]? = some t → playing = true → t.status = .running ∧ t.error = none
  waiting : ∀ i t, tasks[i]? = some t → k + playing.toNat ≤ i → t = { task := t.task }

namespace Standing

variable {script : Script} {k k' : Nat} {playing playing' : Bool} {tasks : List TaskState}

/-- The next task, or the one being played, may come to stand otherwise. -/
theorem modify (h : Standing script k playing tasks) (hk : k < tasks.length)
    (hk' : k' + playing'.toNat = k + 1) {change : TaskState → TaskState}
    (htask : ∀ t, (change t).task = t.task)
    (hended : k < k' → ∀ t, tasks[k]? = some t → (change t).Ended)
    (hrunning : playing' = true → ∀ t, tasks[k]? = some t →
      (change t).status = .running ∧ (change t).error = none) :
    Standing script k' playing' (tasks.modify k change) := by
  -- A task of the new list is one of the old at another place, or the changed one.
  have split : ∀ i t, (tasks.modify k change)[i]? = some t →
      (i ≠ k ∧ tasks[i]? = some t) ∨ (i = k ∧ ∃ u, tasks[k]? = some u ∧ t = change u) := by
    intro i t ht
    rw [List.getElem?_modify] at ht
    by_cases hi : i = k
    · subst hi
      obtain ⟨u, hu, rfl⟩ := Option.map_eq_some_iff.mp ht
      exact .inr ⟨rfl, u, hu, by simp⟩
    · obtain ⟨u, hu, rfl⟩ := Option.map_eq_some_iff.mp ht
      exact .inl ⟨hi, by simpa [Ne.symm hi] using hu⟩
  have hplaying : playing.toNat ≤ 1 := Bool.toNat_le playing
  constructor
  case tasks_eq =>
    rw [← h.tasks_eq]
    apply List.ext_getElem?
    intro i
    rw [List.getElem?_map, List.getElem?_map, List.getElem?_modify]
    by_cases hi : k = i <;> cases tasks[i]? <;> simp [hi, htask]
  case le =>
    rw [List.length_modify, hk']
    exact hk
  case ended =>
    intro i t ht hi
    rcases split i t ht with ⟨hne, ht⟩ | ⟨rfl, u, hu, rfl⟩
    · exact h.ended i t ht (by omega)
    · exact hended hi u hu
  case running =>
    intro t ht hp
    have hone : playing'.toNat = 1 := by rw [hp]; rfl
    obtain rfl : k' = k := by omega
    rcases split k' t ht with ⟨hne, -⟩ | ⟨-, u, hu, rfl⟩
    · exact absurd rfl hne
    · exact hrunning hp u hu
  case waiting =>
    intro i t ht hi
    rcases split i t ht with ⟨hne, ht⟩ | ⟨rfl, -⟩
    · exact h.waiting i t ht (by omega)
    · omega

end Standing

namespace Player

/-- What the observer was told, in order. -/
def notices (p : Player) : List Notice := p.trace.filterMap Event.notice?

theorem Grows.notices_eq {kind : Event → Bool} {p q : Player} (h : Grows kind p q)
    (hkind : ∀ index tasks, kind (.notified index tasks) = false) : q.notices = p.notices := by
  refine h.filterMap_eq fun e he => ?_
  cases e with
  | notified index tasks =>
    rw [hkind index tasks] at he
    cases he
  | _ => rfl

/-- Whether a run does not come back. -/
def RunEnd.isLost : RunEnd → Bool
  | .finished _ => false
  | .hung | .crashed => true

theorem setTask_notices (p : Player) (index : Nat) (status : Status) (error : Option Error) :
    (p.setTask index status error).notices =
      p.notices ++ [⟨index, (p.setTask index status error).tasks⟩] := List.filterMap_append

/-- An entry of a list with one more at its end is an old one, or the new one. -/
theorem getElem?_concat_cases {α : Type} {l : List α} {a b : α} {i : Nat}
    (h : (l ++ [a])[i]? = some b) : l[i]? = some b ∨ i = l.length ∧ b = a := by
  rw [List.getElem?_append] at h
  split at h
  · exact .inl h
  · obtain ⟨hi, hb⟩ := List.getElem?_eq_some_iff.mp h
    rw [List.length_singleton] at hi
    rw [List.getElem_singleton] at hb
    exact .inr ⟨by omega, hb.symm⟩

/-- The observer was told of the tasks got to and of nothing else: twice of each that has ended
and once of the one being played, at the moment when it began and when it ended. -/
structure Told (script : Script) (k : Nat) (playing : Bool) (p : Player) : Prop where
  standing : Standing script k playing p.tasks
  length_eq : p.notices.length = 2 * k + playing.toNat
  opens : ∀ i n, p.notices[2 * i]? = some n → n.index = i ∧ Standing script i true n.tasks ∧
    ∃ task, n.tasks[i]? = some { task, status := .running }
  closes : ∀ i n, p.notices[2 * i + 1]? = some n →
    n.index = i ∧ Standing script (i + 1) false n.tasks

namespace Told

variable {script : Script} {k : Nat} {playing : Bool} {p q : Player}

theorem congr (h : Told script k playing p) (htasks : q.tasks = p.tasks)
    (hnotices : q.notices = p.notices) : Told script k playing q where
  standing := htasks ▸ h.standing
  length_eq := by rw [hnotices]; exact h.length_eq
  opens := by rw [hnotices]; exact h.opens
  closes := by rw [hnotices]; exact h.closes

/-! ## One task -/

/-- A task that waited begins, and the observer sees it without a step. -/
theorem opening (h : Told script k false p) (hk : k < p.tasks.length) :
    Told script k true (p.opening k) := by
  have hnotices : (p.opening k).notices = p.notices ++ [⟨k, (p.opening k).tasks⟩] :=
    setTask_notices p k .running none
  have htasks : (p.opening k).tasks = p.tasks.modify k fun t => { t with status := .running } := rfl
  -- A task that waited has no step and no error, so the notice shows none.
  have waited : ∀ t, p.tasks[k]? = some t → t = { task := t.task } :=
    fun t ht => h.standing.waiting k t ht (Nat.le_refl k)
  have hstanding : Standing script k true (p.opening k).tasks := by
    rw [htasks]
    refine h.standing.modify hk rfl (fun _ => rfl) (fun hlt => absurd hlt (Nat.lt_irrefl k)) ?_
    intro _ t ht
    rw [waited t ht]
    exact ⟨rfl, rfl⟩
  have hfresh : ∃ task, (p.opening k).tasks[k]? = some { task, status := .running } := by
    have ht : p.tasks[k]? = some p.tasks[k] := List.getElem?_eq_getElem hk
    refine ⟨p.tasks[k].task, ?_⟩
    rw [htasks, modify_eq_set_of_getElem? ht, waited _ ht, List.getElem?_set_self hk]
  have hlength : p.notices.length = 2 * k := h.length_eq
  constructor
  case standing => exact hstanding
  case length_eq => rw [hnotices, List.length_append, hlength]; rfl
  case opens =>
    intro i n hn
    rw [hnotices] at hn
    rcases getElem?_concat_cases hn with hn | ⟨hi, rfl⟩
    · exact h.opens i n hn
    · obtain rfl : i = k := by omega
      exact ⟨rfl, hstanding, hfresh⟩
  case closes =>
    intro i n hn
    rw [hnotices] at hn
    rcases getElem?_concat_cases hn with hn | ⟨hi, -⟩
    · exact h.closes i n hn
    · omega

/-- The task being played ends. -/
theorem closing (h : Told script k true p) {status : Status} {error : Option Error}
    (hend : status = .done ∧ error = none ∨ status = .error ∧ error.isSome = true) :
    Told script (k + 1) false (p.setTask k status error) := by
  have hk : k < p.tasks.length := h.standing.le
  have hnotices := setTask_notices p k status error
  have hstanding : Standing script (k + 1) false (p.setTask k status error).tasks := by
    refine h.standing.modify hk rfl (fun _ => rfl) ?_ fun hp => absurd hp Bool.false_ne_true
    intro _ t ht
    obtain ⟨-, hnone⟩ := h.standing.running t ht rfl
    rcases hend with ⟨rfl, rfl⟩ | ⟨rfl, herror⟩
    · exact .inl ⟨rfl, hnone⟩
    · refine .inr ⟨rfl, ?_⟩
      rw [hnone, Option.or_none]
      exact herror
  have hlength : p.notices.length = 2 * k + 1 := h.length_eq
  constructor
  case standing => exact hstanding
  case length_eq =>
    rw [hnotices, List.length_append, hlength]
    rfl
  case opens =>
    intro i n hn
    rw [hnotices] at hn
    rcases getElem?_concat_cases hn with hn | ⟨hi, -⟩
    · exact h.opens i n hn
    · omega
  case closes =>
    intro i n hn
    rw [hnotices] at hn
    rcases getElem?_concat_cases hn with hn | ⟨hi, rfl⟩
    · exact h.closes i n hn
    · obtain rfl : i = k := by omega
      exact ⟨rfl, hstanding⟩

theorem atStep (h : Told script k true p) (step : Nat) : Told script k true (p.atStep k step) where
  standing := by
    rw [atStep_tasks]
    exact h.standing.modify h.standing.le rfl (fun _ => rfl)
      (fun hlt => absurd hlt (Nat.lt_irrefl k)) fun _ t ht => h.standing.running t ht rfl
  length_eq := h.length_eq
  opens := h.opens
  closes := h.closes

theorem playFlow (h : Told script k true p) (agent : Agent) (registry : Registry)
    (items : List Item) (first : Nat) :
    Told script k true (Player.playFlow agent registry k first items p).1 := by
  refine playFlow_keeps (fun {q} step item h => ?_) items first h
  exact (h.atStep step).congr (playItem_still (q.atStep k step) agent registry item).tasks
    ((playItem_grows (q.atStep k step) agent registry item).notices_eq fun _ _ => rfl)

/-- A task is told of twice, unless its run is lost in it. -/
theorem playTask (h : Told script k false p) (hk : k < p.tasks.length) (agent : Agent)
    (registry : Registry) (task : Task) :
    let played := Player.playTask agent registry k task p
    let lost := (runEnd played.2).isLost
    Told script (if lost then k else k + 1) lost played.1 := by
  have flow := (h.opening hk).playFlow agent registry task.flow 0
  rw [playTask_eq]
  cases hplay : Player.playFlow agent registry k 0 task.flow (p.opening k) with | mk q ending
  rw [hplay] at flow
  cases ending with
  | done => exact (flow.closing (.inl ⟨rfl, rfl⟩)).congr rfl rfl
  | failed e => exact (flow.closing (.inr ⟨rfl, rfl⟩)).congr rfl rfl
  | hung => exact flow
  | crashed => exact flow

/-! ## All tasks -/

theorem length_tasks (h : Told script k playing p) : p.tasks.length = script.tasks.length := by
  rw [← h.standing.tasks_eq, List.length_map]

theorem playTasks (h : Told script k false p) (agent : Agent) (registry : Registry)
    (tasks : List Task) (hlen : k + tasks.length = script.tasks.length) :
    ∃ k', Told script k' (runEnd (Player.playTasks agent registry k tasks p).2).isLost
      (Player.playTasks agent registry k tasks p).1 := by
  -- The number of the next task is also how many have ended, as long as the run goes on.
  induction tasks generalizing k p with
  | nil => exact ⟨k, h⟩
  | cons task rest ih =>
    rw [List.length_cons] at hlen
    have played := h.playTask (by rw [h.length_tasks]; omega) agent registry task
    rw [Player.playTasks]
    cases hplay : Player.playTask agent registry k task p with | mk q ending
    rw [hplay] at played
    cases ending with
    | done => exact ih played (by omega)
    | failed e =>
      dsimp only
      split
      · exact ih played (by omega)
      · exact ⟨k + 1, played⟩
    | hung => exact ⟨k, played⟩
    | crashed => exact ⟨k, played⟩

end Told

/-! ## Runs -/

/-- Before a run nothing was told. -/
theorem ready_told {p : Player} (agent : Agent)
    (htasks : p.tasks = p.script.tasks.map ({ task := · })) (hnotices : p.notices = []) :
    Told p.script 0 false (p.ready agent) := by
  have hready : (p.ready agent).notices = [] :=
    ((ready_grows p agent).notices_eq fun _ _ => rfl).trans hnotices
  have hwaiting : ∀ (i : Nat) (t : TaskState), (p.ready agent).tasks[i]? = some t →
      t = { task := t.task } := by
    intro i t ht
    change p.tasks[i]? = some t at ht
    rw [htasks, List.getElem?_map] at ht
    obtain ⟨task, -, rfl⟩ := Option.map_eq_some_iff.mp ht
    rfl
  constructor
  case standing =>
    constructor
    case tasks_eq =>
      change p.tasks.map (·.task) = p.script.tasks
      rw [htasks, List.map_map]
      exact List.map_id _
    case le => exact Nat.zero_le _
    case ended => exact fun i _ _ hi => absurd hi (Nat.not_lt_zero i)
    case running => exact fun _ _ hp => absurd hp Bool.false_ne_true
    case waiting => exact fun i t ht _ => hwaiting i t ht
  case length_eq => rw [hready]; rfl
  case opens => rw [hready]; exact fun _ _ hn => by simp at hn
  case closes => rw [hready]; exact fun _ _ hn => by simp at hn

theorem concluded_tasks (p : Player) (ready : Ready) (e : RunEnd) :
    (p.concluded ready e).tasks = p.tasks := by
  cases e with
  | finished status => exact finish_tasks p ready status
  | hung => rfl
  | crashed => rfl

theorem run_told {p : Player} {ready : Ready} (hfirst : p.isSetUp = false)
    (h : p.setup.outcome = .ok ready) (htasks : p.tasks = p.script.tasks.map ({ task := · }))
    (hnotices : p.notices = []) : ∃ k, Told p.script k p.run.2.isLost p.run.1 := by
  obtain ⟨k, htold⟩ := (ready_told ready.agent htasks hnotices).playTasks ready.agent ready.registry
    p.script.tasks (Nat.zero_add _)
  rw [run_accepted hfirst h]
  exact ⟨k, htold.congr (concluded_tasks _ ready _)
    ((concluded_grows _ ready _).notices_eq fun _ _ => rfl)⟩

/-- **What an observer is told.** In a first run whose setup is accepted, the tasks got to are the
first `k` of the script and the observer is told of these alone, in their order: of each as it
begins, running and without a step or an error, and as it ends, done or with an error, while the
tasks before it have ended and those after it wait. The run comes back if the agent answers; the
task in which a run is lost is told of only as it begins. A refused setup tells nothing, and nor
does anything after the first run. -/
theorem run_notices (script : Script) (config : Config) (path : Option String) (setup : Setup)
    (takes : Nat → Bool) :
    let start := Player.new script config path setup takes
    (∀ ready, setup.outcome = .ok ready →
      (ready.agent.Answers → start.run.2.isLost = false) ∧
        ∃ k, Told script k start.run.2.isLost start.run.1) ∧
    (∀ e, setup.outcome = .error e → start.run.1.notices = []) ∧
    ∀ calls, (start.run.1.calls calls).notices = start.run.1.notices := by
  intro start
  refine ⟨fun ready hready => ⟨fun ha => ?_, run_told (p := start) rfl hready rfl rfl⟩, fun e he => ?_, ?_⟩
  · obtain ⟨status, hend⟩ := run_finished (p := start) rfl hready ha
    rw [hend]
    rfl
  · rw [run_refused (p := start) rfl he]
    rfl
  · intro calls
    exact (calls_grows (run_isSetUp start) calls).notices_eq fun _ _ => rfl

theorem run_notices_errand :
    let start := Player.new errand ⟨"", false, ""⟩ none (.ready .idle []) fun _ => true
    let refused := Player.new errand ⟨"", false, ""⟩ none (.failed "no device") fun _ => true
    (Setup.ready .idle []).outcome = .ok ⟨.idle, .empty, []⟩ ∧ Agent.idle.Answers ∧
      (∃ k, Told errand k false start.run.1) ∧
      (start.run.1.notices.map fun n => (n.index, n.tasks[n.index]?.map (·.status))) =
        [(0, some .running), (0, some .error), (1, some .running), (1, some .done),
          (2, some .running), (2, some .done), (3, some .running), (3, some .error)] ∧
      (start.run.1.calls [.run, .destroy, .run]).notices = start.run.1.notices ∧
      refused.run.1.notices = [] := by
  intro start refused
  obtain ⟨haccepted, -, hlater⟩ :=
    run_notices errand ⟨"", false, ""⟩ none (.ready .idle []) fun _ => true
  obtain ⟨-, hrefused, -⟩ :=
    run_notices errand ⟨"", false, ""⟩ none (.failed "no device") fun _ => true
  obtain ⟨hback, htold⟩ := haccepted ⟨.idle, .empty, []⟩ rfl
  rw [hback Agent.idle_answers] at htold
  exact ⟨rfl, Agent.idle_answers, htold, by decide +kernel, hlater _, hrefused _ rfl⟩

end Player

end Runbook
