/-
The transcript of a run: which items are played, in order, and what comes of each.

A turn is an item that was played. It is fixed by the item, the actions and the turns before it:
the agent answers knowing what it was asked before, and a result can or cannot be written after
those that came before. Items have their turns up to the first that fails, and tasks up to the
first that ends the run; both are `inOrder`, whose lemmas serve for items and tasks alike.
Nothing here speaks of a player; that a player follows its transcript is shown in
`Runbook.Proofs.Player.Follow`.
-/
import Runbook.Player.Play
import Runbook.Proofs.Results

namespace Runbook

/-- An item that was played. -/
structure Turn where
  item : Item
  /-- What the item was taken for. -/
  step : Except Error Step
  /-- How carrying the step out ended. -/
  carried : Ending Yield
  /-- Whether what there was to record could be written. -/
  kept : Except Error Unit

namespace Turn

/-- What the turn asked of the agent: the operation of its command, if it is no pause. -/
def operation? (t : Turn) : Option Operation :=
  match t.step with
  | .ok step => step.command.operation?
  | .error _ => none

theorem operation?_eq_some_iff {t : Turn} {operation : Operation} :
    t.operation? = some operation ↔
      ∃ step, t.step = .ok step ∧ step.command = .ask operation := by
  unfold operation?
  cases t.step with
  | error e => simp
  | ok step =>
    cases hcommand : step.command with
    | pause micros => simp [Command.operation?, hcommand]
    | ask other => simp [Command.operation?, hcommand]

/-- What is recorded of a step that ended in some way. -/
def recordingOf : Except Error Step → Ending Yield → Option Recording
  | .ok step, .done { value := some value, .. } =>
    match step.command.policy, step.name with
    | .always, name => some ⟨name, value⟩
    | .whenNamed, some name => some ⟨some name, value⟩
    | .whenNamed, none | .never, _ => none
  | _, _ => none

def recording? (t : Turn) : Option Recording := recordingOf t.step t.carried

/-- How the turn ended. A result that could not be written comes before a failed assertion. -/
def ending (t : Turn) : Ending Unit :=
  match t.carried, t.kept with
  | .done _, .error e => .failed e
  | .done { failure := some e, .. }, .ok _ => .failed e
  | .done { failure := none, .. }, .ok _ => .done ()
  | .failed e, _ => .failed e
  | .hung, _ => .hung
  | .crashed, _ => .crashed

/-- The ways in which a turn fails. -/
inductive FailedBy (sink : Sink) (t : Turn) : Error → Prop
  /-- Its item was not understood. -/
  | unresolved {e : Error} (hstep : t.step = .error e) : FailedBy sink t e
  /-- The agent failed at it. -/
  | refused {step : Step} {operation : Operation} {text : String} (hstep : t.step = .ok step)
      (hcommand : step.command = .ask operation)
      (hcarried : t.carried = .failed (.agent text)) : FailedBy sink t (.agent text)
  /-- What it yielded was to be kept and could not be written. -/
  | unwritten {step : Step} (hstep : t.step = .ok step) (hpolicy : step.command.policy ≠ .never)
      (hsink : sink ≠ .memory) (hkept : t.kept = .error .io) : FailedBy sink t .io
  /-- It was an assertion, and the agent denied it. -/
  | denied {step : Step} {prompt : Prompt} {message : Option String} {options : Object}
      {verdict : Verdict} (hstep : t.step = .ok step)
      (hcommand : step.command = .ask (.assertion prompt message options))
      (hpass : verdict.pass = false)
      (hrecording : t.recording? = some ⟨step.name, verdict.toValue⟩) :
      FailedBy sink t (.assertionFailed (verdict.complaint prompt message))

end Turn

namespace Transcript

/-- Each of some things after those before it, up to and including the first after which it does
not go on. What comes of a thing depends on all turns before it. -/
def inOrder {α β : Type} (next : List Turn → α → β) (turns : β → List Turn)
    (goesOn : α → β → Bool) (before : List Turn) : List α → List β
  | [] => []
  | a :: rest =>
    let b := next before a
    if goesOn a b then b :: inOrder next turns goesOn (before ++ turns b) rest else [b]

/-- The operations of some turns. -/
def operations (turns : List Turn) : List Operation := turns.filterMap Turn.operation?

/-- The recordings of some turns. -/
def recordings (turns : List Turn) : List Recording := turns.filterMap Turn.recording?

/-- The results after some turns. -/
def results (sink : Sink) (turns : List Turn) : Results :=
  (recordings turns).foldl (fun r x => (r.record x.name x.value).1) { sink }

/-- How some turns ended: as the last of them did. -/
def ending (turns : List Turn) : Ending Unit :=
  match turns.getLast? with
  | some t => t.ending
  | none => .done ()

/-- Whether a flow goes on after one of its items. -/
def flowGoesOn (t : Turn) : Bool :=
  match t.ending with
  | .done _ => true
  | .failed _ | .hung | .crashed => false

/-- Whether the run goes on after a task that had some turns. -/
def runGoesOn (task : Task) (turns : List Turn) : Bool :=
  match ending turns with
  | .done _ => true
  | .failed _ => task.continueOnError
  | .hung | .crashed => false

/-- How a command ends that is carried out after some operations. -/
def carry (agent : Agent) (asked : List Operation) : Command → Ending Yield
  | .pause _ => .done {}
  | .ask operation => operation.ending (agent.respond asked operation).outcome

/-- Whether what there is to record can be written after some turns. -/
def keep (sink : Sink) (before : List Turn) : Option Recording → Except Error Unit
  | some x => ((results sink before).record x.name x.value).2.map fun _ => ()
  | none => .ok ()

/-- The turn of an item, after the turns before it. -/
def turn (agent : Agent) (registry : Registry) (sink : Sink) (before : List Turn) (item : Item) :
    Turn :=
  let step := (Step.resolve registry item).run.value
  let carried := match step with
    | .ok step => carry agent (operations before) step.command
    | .error e => .failed e
  { item, step, carried, kept := keep sink before (Turn.recordingOf step carried) }

/-- The turns of a flow, after the turns before it. -/
def flow (agent : Agent) (registry : Registry) (sink : Sink) (before : List Turn) :
    List Item → List Turn :=
  inOrder (turn agent registry sink) ([·]) (fun _ => flowGoesOn) before

/-- The turns of each task that is played, after the turns before it. -/
def tasks (agent : Agent) (registry : Registry) (sink : Sink) (before : List Turn) :
    List Task → List (List Turn) :=
  inOrder (fun before task => flow agent registry sink before task.flow) id runGoesOn before

/-- What it is for the turns of some tasks to be in sequence: every item comes in its place, after
all turns before it, a flow goes on up to its first item that does not end well, and the tasks up
to the first that ends the run. -/
structure Sequential (agent : Agent) (registry : Registry) (sink : Sink) (ts : List Task)
    (account : List (List Turn)) : Prop where
  turn_eq : ∀ (i j : Nat) (turns : List Turn) (t : Turn), account[i]? = some turns →
    turns[j]? = some t → ∃ task item, ts[i]? = some task ∧ task.flow[j]? = some item ∧
      t = turn agent registry sink ((account.take i).flatten ++ turns.take j) item
  ended : ∀ (i j : Nat) (turns : List Turn) (t : Turn), account[i]? = some turns →
    turns[j]? = some t → j + 1 < turns.length → t.ending = .done ()
  /-- A task whose flow is not played to its end has a last turn that did not end well. -/
  whole : ∀ (i : Nat) (turns : List Turn), account[i]? = some turns →
    ∃ task, ts[i]? = some task ∧ (turns.length = task.flow.length ∨
      ∃ t, turns.getLast? = some t ∧ t.ending ≠ .done ())
  goesOn : ∀ (i : Nat) (turns : List Turn) (task : Task), account[i]? = some turns →
    ts[i]? = some task → i + 1 < account.length → runGoesOn task turns = true
  stops : account.length = ts.length ∨ ∃ i turns task, account.length = i + 1 ∧
    account[i]? = some turns ∧ ts[i]? = some task ∧ runGoesOn task turns = false

/-! ## One after the other -/

section

variable {α β : Type} {next : List Turn → α → β} {turns : β → List Turn} {goesOn : α → β → Bool}
  {before : List Turn} {as : List α} {a : α} {b : β} {i : Nat}

theorem inOrder_cons (before : List Turn) (a : α) (rest : List α) :
    inOrder next turns goesOn before (a :: rest) =
      if goesOn a (next before a) then
        next before a :: inOrder next turns goesOn (before ++ turns (next before a)) rest
      else [next before a] := rfl

theorem inOrder_length_le (before : List Turn) (as : List α) :
    (inOrder next turns goesOn before as).length ≤ as.length := by
  induction as generalizing before with
  | nil => exact Nat.le_refl 0
  | cons a rest ih =>
    rw [inOrder_cons]
    split
    · simpa using ih _
    · simp

/-- What comes of the thing at a place is fixed by the turns of the places before. -/
theorem inOrder_getElem? (h : (inOrder next turns goesOn before as)[i]? = some b) :
    ∃ a, as[i]? = some a ∧
      b = next (before ++ ((inOrder next turns goesOn before as).take i).flatMap turns) a := by
  induction as generalizing before i with
  | nil => simp [inOrder] at h
  | cons a rest ih =>
    rw [inOrder_cons] at h ⊢
    split at h
    · next hgo =>
      rw [if_pos hgo]
      cases i with
      | zero =>
        simp only [List.getElem?_cons_zero, Option.some.injEq] at h
        exact ⟨a, rfl, by simp [h]⟩
      | succ i =>
        obtain ⟨a', ha', hb⟩ := ih h
        refine ⟨a', ha', ?_⟩
        simpa [List.append_assoc] using hb
    · next hgo =>
      rw [if_neg hgo]
      cases i with
      | zero =>
        simp only [List.getElem?_cons_zero, Option.some.injEq] at h
        exact ⟨a, rfl, by simp [h]⟩
      | succ i => simp at h

/-- It goes on after all but the last. -/
theorem inOrder_goesOn (goesOn : α → β → Bool)
    (hb : (inOrder next turns goesOn before as)[i]? = some b)
    (ha : as[i]? = some a) (hi : i + 1 < (inOrder next turns goesOn before as).length) :
    goesOn a b = true := by
  induction as generalizing before i with
  | nil => simp at ha
  | cons a' rest ih =>
    rw [inOrder_cons] at hb hi
    split at hb
    · next hgo =>
      rw [if_pos hgo] at hi
      cases i with
      | zero =>
        simp only [List.getElem?_cons_zero, Option.some.injEq] at ha hb
        rw [← ha, ← hb]
        exact hgo
      | succ i => exact ih hb ha (by simpa using hi)
    · next hgo =>
      rw [if_neg hgo] at hi
      simp at hi

/-- Where it stops short, it does not go on after the last. -/
theorem inOrder_stops (h : (inOrder next turns goesOn before as).length < as.length) :
    ∃ i a b, (inOrder next turns goesOn before as).length = i + 1 ∧ as[i]? = some a ∧
      (inOrder next turns goesOn before as)[i]? = some b ∧ goesOn a b = false := by
  induction as generalizing before with
  | nil => simp at h
  | cons a rest ih =>
    rw [inOrder_cons] at h ⊢
    split
    · next hgo =>
      rw [if_pos hgo] at h
      obtain ⟨i, a', b, hlen, ha', hb, hstop⟩ := ih (by simpa using h)
      exact ⟨i + 1, a', b, by simpa using hlen, ha', hb, hstop⟩
    · next hgo => exact ⟨0, a, next before a, rfl, rfl, rfl, by simpa using hgo⟩

/-- Fewer things come to fewer of the same. -/
theorem inOrder_take (before : List Turn) (as : List α) (n : Nat) :
    inOrder next turns goesOn before (as.take n) =
      (inOrder next turns goesOn before as).take n := by
  induction as generalizing before n with
  | nil => simp [inOrder]
  | cons a rest ih =>
    cases n with
    | zero => simp [inOrder]
    | succ n =>
      rw [List.take_succ_cons, inOrder_cons, inOrder_cons]
      split
      · rw [List.take_succ_cons, ih]
      · simp

end

/-! ## Sums -/

variable {agent : Agent} {registry : Registry} {sink : Sink} {before turns : List Turn}

@[simp] theorem operations_append (ts us : List Turn) :
    operations (ts ++ us) = operations ts ++ operations us := List.filterMap_append

@[simp] theorem operations_singleton (t : Turn) : operations [t] = t.operation?.toList := by
  cases h : t.operation? <;> simp [operations, h]

theorem results_concat (sink : Sink) (ts : List Turn) (t : Turn) :
    results sink (ts ++ [t]) =
      match t.recording? with
      | some x => ((results sink ts).record x.name x.value).1
      | none => results sink ts := by
  unfold results recordings
  rw [List.filterMap_append, List.foldl_append]
  cases h : t.recording? <;> simp [h]

@[simp] theorem ending_nil : ending [] = .done () := rfl

@[simp] theorem ending_singleton (t : Turn) : ending [t] = t.ending := rfl

/-- After a turn that ended well, the turns that follow decide. -/
theorem ending_cons {t : Turn} (h : t.ending = .done ()) (ts : List Turn) :
    ending (t :: ts) = ending ts := by
  cases ts with
  | nil => rw [ending_singleton, h, ending_nil]
  | cons u us => simp [ending, List.getLast?_cons]

theorem flowGoesOn_iff {t : Turn} : flowGoesOn t = true ↔ t.ending = .done () := by
  unfold flowGoesOn
  cases t.ending <;> simp

/-! ## Turns -/

theorem turn_of_error {item : Item} {e : Error}
    (h : (Step.resolve registry item).run.value = .error e) :
    turn agent registry sink before item = ⟨item, .error e, .failed e, .ok ()⟩ := by
  simp only [turn, h, Turn.recordingOf, keep]

theorem turn_of_ok {item : Item} {step : Step}
    (h : (Step.resolve registry item).run.value = .ok step) :
    turn agent registry sink before item =
      let carried := carry agent (operations before) step.command
      ⟨item, .ok step, carried, keep sink before (Turn.recordingOf (.ok step) carried)⟩ := by
  simp only [turn, h]

/-- The results of some turns go where they are to go from the start. -/
theorem results_sink (sink : Sink) (ts : List Turn) : (results sink ts).sink = sink := by
  unfold results
  suffices h : ∀ (rs : List Recording) (r : Results),
      (rs.foldl (fun r x => (r.record x.name x.value).1) r).sink = r.sink from h _ _
  intro rs
  induction rs with
  | nil => exact fun _ => rfl
  | cons x rest ih =>
    intro r
    rw [List.foldl_cons, ih]
    exact Results.save_sink _

/-- An operation fails with what the agent says. -/
theorem carry_failed {asked : List Operation} {command : Command} {e : Error}
    (h : carry agent asked command = .failed e) : ∃ operation text,
      command = .ask operation ∧ e = .agent text := by
  cases command with
  | pause micros => cases h
  | ask operation =>
    change operation.ending (agent.respond asked operation).outcome = .failed e at h
    cases hout : (agent.respond asked operation).outcome with
    | value a => rw [hout] at h; cases h
    | never => rw [hout] at h; cases h
    | crash => rw [hout] at h; cases h
    | failure text =>
      simp only [hout, Operation.ending] at h
      split at h
      · cases h
      · cases h
        exact ⟨operation, text, rfl, rfl⟩

/-- Only a failed assertion fails after it is carried out. -/
theorem carry_denied {asked : List Operation} {command : Command} {value : Option Value}
    {e : Error} (h : carry agent asked command = .done ⟨value, some e⟩) :
    ∃ prompt message options, ∃ verdict : Verdict,
      command = .ask (.assertion prompt message options) ∧ verdict.pass = false ∧
        value = some verdict.toValue ∧ e = .assertionFailed (verdict.complaint prompt message) := by
  cases command with
  | pause micros => cases h
  | ask operation =>
    change operation.ending (agent.respond asked operation).outcome = .done ⟨value, some e⟩ at h
    cases hout : (agent.respond asked operation).outcome with
    | never => rw [hout] at h; cases h
    | crash => rw [hout] at h; cases h
    | failure text =>
      simp only [hout, Operation.ending] at h
      split at h <;> cases h
    | value a =>
      simp only [hout, Operation.ending, Ending.done.injEq] at h
      cases operation with
      | assertion prompt message options =>
        simp only [Operation.yield, Yield.mk.injEq, Verdict.failure?] at h
        obtain ⟨hvalue, hfailure⟩ := h
        split at hfailure
        · cases hfailure
        · next hpass =>
          exact ⟨prompt, message, options, a, rfl, by simpa using hpass, hvalue.symm,
            (Option.some.inj hfailure).symm⟩
      | act prompt options => cases h
      | extract kind prompt options => cases h
      | waitFor prompt options => cases h
      | javascript script => cases h
      | report title content => cases h
      | call action param => cases h

/-- Only a file can fail to be written. -/
theorem save_error {r : Results} {e : Error} (h : r.save.2 = .error e) :
    r.sink ≠ .memory ∧ e = .io := by
  unfold Results.save at h
  cases hsink : r.sink with
  | memory => rw [hsink] at h; cases h
  | file takes =>
    refine ⟨nofun, ?_⟩
    simp only [hsink] at h
    split at h
    · cases h
    · cases h
      rfl

theorem record_error {r : Results} {name : Option String} {value : Value} {e : Error}
    (h : (r.record name value).2 = .error e) : r.sink ≠ .memory ∧ e = .io := by
  change (r.put name value).save.2.map _ = .error e at h
  cases hsave : (r.put name value).save.2 with
  | ok => rw [hsave] at h; cases h
  | error e' =>
    rw [hsave] at h
    cases h
    obtain ⟨hsink, he⟩ := save_error hsave
    exact ⟨hsink, he⟩

theorem keep_error {recording : Option Recording} {e : Error}
    (h : keep sink before recording = .error e) : sink ≠ .memory ∧ e = .io := by
  cases recording with
  | none => cases h
  | some x =>
    change ((results sink before).record x.name x.value).2.map _ = .error e at h
    cases hrecord : ((results sink before).record x.name x.value).2 with
    | ok => rw [hrecord] at h; cases h
    | error e' =>
      rw [hrecord] at h
      cases h
      have hkept := record_error hrecord
      rwa [results_sink] at hkept

/-- A turn that failed was not understood, was refused by the agent, could not be written down or
was a failed assertion. -/
theorem turn_failed {item : Item} {e : Error}
    (h : (turn agent registry sink before item).ending = .failed e) :
    (turn agent registry sink before item).FailedBy sink e := by
  cases hstep : (Step.resolve registry item).run.value with
  | error e' =>
    rw [turn_of_error hstep] at h ⊢
    cases h
    exact .unresolved rfl
  | ok step =>
    rw [turn_of_ok hstep] at h ⊢
    dsimp only at h ⊢
    cases hcarried : carry agent (operations before) step.command with
    | hung => rw [hcarried] at h; cases h
    | crashed => rw [hcarried] at h; cases h
    | failed e' =>
      obtain ⟨operation, text, hcommand, rfl⟩ := carry_failed hcarried
      rw [hcarried] at h
      cases h
      exact .refused rfl hcommand rfl
    | done yield =>
      obtain ⟨value, failure⟩ := yield
      rw [hcarried] at h
      cases hkept : keep sink before (Turn.recordingOf (.ok step) (.done ⟨value, failure⟩)) with
      | error e' =>
        obtain ⟨hsink, rfl⟩ := keep_error hkept
        rw [hkept] at h
        cases h
        refine .unwritten rfl (fun hnever => ?_) hsink rfl
        cases value with
        | none => cases hkept
        | some value =>
          simp only [Turn.recordingOf, hnever] at hkept
          cases hkept
      | ok =>
        rw [hkept] at h
        cases failure with
        | none => cases h
        | some e' =>
          cases h
          obtain ⟨prompt, message, options, verdict, hcommand, hpass, rfl, rfl⟩ :=
            carry_denied hcarried
          have halways : step.command.policy = .always := by rw [hcommand]; rfl
          refine .denied rfl hcommand hpass ?_
          simp only [Turn.recording?, Turn.recordingOf, halways]

/-! ## Flows -/

theorem flow_cons (before : List Turn) (item : Item) (rest : List Item) :
    flow agent registry sink before (item :: rest) =
      if flowGoesOn (turn agent registry sink before item) then
        turn agent registry sink before item ::
          flow agent registry sink (before ++ [turn agent registry sink before item]) rest
      else [turn agent registry sink before item] := rfl

theorem flow_length_le (before : List Turn) (items : List Item) :
    (flow agent registry sink before items).length ≤ items.length :=
  inOrder_length_le before items

theorem flow_take (before : List Turn) (items : List Item) (n : Nat) :
    flow agent registry sink before (items.take n) =
      (flow agent registry sink before items).take n := inOrder_take before items n

/-- A turn of a flow is the one of its item, after the turns before it. -/
theorem flow_getElem? {items : List Item} {j : Nat} {t : Turn}
    (h : (flow agent registry sink before items)[j]? = some t) :
    ∃ item, items[j]? = some item ∧
      t = turn agent registry sink
        (before ++ (flow agent registry sink before items).take j) item := by
  obtain ⟨item, hitem, ht⟩ := inOrder_getElem? h
  refine ⟨item, hitem, ?_⟩
  rwa [List.flatMap_singleton'] at ht

/-- All turns of a flow but the last ended well. -/
theorem flow_ended {items : List Item} {j : Nat} {t : Turn}
    (h : (flow agent registry sink before items)[j]? = some t)
    (hj : j + 1 < (flow agent registry sink before items).length) : t.ending = .done () := by
  obtain ⟨item, hitem, -⟩ := flow_getElem? h
  have hgo : flowGoesOn t = true := inOrder_goesOn (fun _ => flowGoesOn) h hitem hj
  exact flowGoesOn_iff.mp hgo

/-- The turns before the last ended well. -/
theorem ending_take_flow {items : List Item} {j : Nat}
    (hj : j < (flow agent registry sink before items).length) :
    ending ((flow agent registry sink before items).take j) = .done () := by
  cases j with
  | zero => rfl
  | succ j =>
    obtain ⟨t, hget⟩ : ∃ t, (flow agent registry sink before items)[j]? = some t :=
      ⟨_, List.getElem?_eq_getElem (Nat.lt_of_succ_lt hj)⟩
    have hlast : ((flow agent registry sink before items).take (j + 1)).getLast? = some t := by
      rw [List.getLast?_take, if_neg (Nat.succ_ne_zero j), Nat.add_sub_cancel, hget, Option.some_or]
    rw [ending, hlast]
    exact flow_ended hget hj

/-- A flow that is not played to its end has a last turn that did not end well. -/
theorem flow_stops {items : List Item}
    (h : (flow agent registry sink before items).length < items.length) :
    ∃ t, (flow agent registry sink before items).getLast? = some t ∧ t.ending ≠ .done () := by
  obtain ⟨j, item, t, hlen, -, ht, hstop⟩ := inOrder_stops h
  refine ⟨t, ?_, fun hend => ?_⟩
  · rw [List.getLast?_eq_getElem?]
    change (flow agent registry sink before items).length = j + 1 at hlen
    rw [hlen, Nat.add_sub_cancel]
    exact ht
  · rw [flowGoesOn_iff.mpr hend] at hstop
    cases hstop

/-! ## Tasks -/

theorem tasks_cons (before : List Turn) (task : Task) (rest : List Task) :
    tasks agent registry sink before (task :: rest) =
      let turns := flow agent registry sink before task.flow
      if runGoesOn task turns then turns :: tasks agent registry sink (before ++ turns) rest
      else [turns] := rfl

theorem tasks_take (before : List Turn) (ts : List Task) (n : Nat) :
    tasks agent registry sink before (ts.take n) =
      (tasks agent registry sink before ts).take n := inOrder_take before ts n

/-- The turns of a task are those of its flow, after the turns of the tasks before it. -/
theorem tasks_getElem? {ts : List Task} {i : Nat}
    (h : (tasks agent registry sink before ts)[i]? = some turns) :
    ∃ task, ts[i]? = some task ∧
      turns = flow agent registry sink
        (before ++ ((tasks agent registry sink before ts).take i).flatten) task.flow := by
  obtain ⟨task, htask, hturns⟩ := inOrder_getElem? h
  refine ⟨task, htask, ?_⟩
  rwa [List.flatMap_id] at hturns

theorem tasks_sequential (agent : Agent) (registry : Registry) (sink : Sink) (ts : List Task) :
    Sequential agent registry sink ts (tasks agent registry sink [] ts) where
  turn_eq i j turns t hturns ht := by
    obtain ⟨task, htask, rfl⟩ := tasks_getElem? hturns
    obtain ⟨item, hitem, rfl⟩ := flow_getElem? ht
    exact ⟨task, item, htask, hitem, rfl⟩
  ended i j turns t hturns ht hj := by
    obtain ⟨task, -, rfl⟩ := tasks_getElem? hturns
    exact flow_ended ht hj
  whole i turns hturns := by
    obtain ⟨task, htask, rfl⟩ := tasks_getElem? hturns
    refine ⟨task, htask, ?_⟩
    rcases Nat.lt_or_eq_of_le (flow_length_le _ task.flow) with hlt | heq
    · exact .inr (flow_stops hlt)
    · exact .inl heq
  goesOn i turns task hturns htask hi := inOrder_goesOn runGoesOn hturns htask hi
  stops := by
    rcases Nat.lt_or_eq_of_le (inOrder_length_le [] ts) with hlt | heq
    · obtain ⟨i, task, turns, hlen, htask, hturns, hstop⟩ := inOrder_stops hlt
      exact .inr ⟨i, turns, task, hlen, hturns, htask, hstop⟩
    · exact .inl heq

/-- Every turn is that of an item, after some turns. -/
theorem Sequential.mem_flatten {ts : List Task} {account : List (List Turn)} {t : Turn}
    (h : Sequential agent registry sink ts account) (ht : t ∈ account.flatten) :
    ∃ before item, t = turn agent registry sink before item := by
  obtain ⟨turns, hturns, ht⟩ := List.mem_flatten.mp ht
  obtain ⟨i, hi⟩ := List.mem_iff_getElem?.mp hturns
  obtain ⟨j, hj⟩ := List.mem_iff_getElem?.mp ht
  obtain ⟨task, item, -, -, heq⟩ := h.turn_eq i j turns t hi hj
  exact ⟨_, item, heq⟩

end Transcript

end Runbook
