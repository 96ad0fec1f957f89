/-
What becomes of an agent's tips.

During a run the player is in the agent's tip slot, and whoever was there before hears of every tip
through it. `Attending` says so once: given all tips so far, the player shows the last of them while
it is running and none otherwise, and the agent's own listener has heard them all in order. Each
tip keeps it (`Attending.emit`), and so does everything else that happens between the beginning of
a run and the moment when the slot is given back. From then on the player rests: no tip gets to a
player that is not running, and later runs give none (`calls_rests`).
-/
import Runbook.Proofs.Player.Cleanup
import Runbook.Proofs.Player.Follow
import Runbook.Proofs.Player.Notices

namespace Runbook

/-- The text of a tip, if that is what the agent does. -/
def Signal.tip? : Signal → Option String
  | .tip text => some text
  | .performed _ | .closed => none

/-- The tip that the agent's own listener receives, if that is what happens. -/
def Event.heard? : Event → Option String
  | .heard text => some text
  | _ => none

namespace Agent

/-- The listener of the agent's tips can be changed. -/
def StoresSlot (agent : Agent) : Prop := agent.slot = .vacant ∨ agent.slot = .own

/-- The tips that the agent gives while it answers an operation. -/
def tipsAt (agent : Agent) (asked : List Operation) (operation : Operation) : List String :=
  (agent.respond asked operation).signals.filterMap Signal.tip?

/-- The tips that the agent gives while it answers one operation after the other. -/
def tipsAfter (agent : Agent) : List Operation → List Operation → List String
  | _, [] => []
  | asked, operation :: rest =>
    agent.tipsAt asked operation ++ agent.tipsAfter (asked ++ [operation]) rest

/-- All tips of an agent that was asked for the operations. -/
def tips (agent : Agent) (asked : List Operation) : List String := agent.tipsAfter [] asked

/-- All that the agent does while it carries a command out. -/
def signalsAt (agent : Agent) (asked : List Operation) : Command → List Signal
  | .pause _ => []
  | .ask operation => (agent.respond asked operation).signals

theorem tipsAfter_concat (agent : Agent) (asked operations : List Operation)
    (operation : Operation) : agent.tipsAfter asked (operations ++ [operation]) =
      agent.tipsAfter asked operations ++ agent.tipsAt (asked ++ operations) operation := by
  induction operations generalizing asked with
  | nil => simp [tipsAfter]
  | cons o rest ih =>
    simp only [List.cons_append, tipsAfter, ih, List.append_assoc, List.nil_append]

theorem tips_concat (agent : Agent) (asked : List Operation) (operation : Operation) :
    agent.tips (asked ++ [operation]) = agent.tips asked ++ agent.tipsAt asked operation :=
  agent.tipsAfter_concat [] asked operation

/-- The tips of a command are those of the operation that it asks for, if it does. -/
theorem tips_append (agent : Agent) (asked : List Operation) (command : Command) :
    agent.tips (asked ++ command.operation?.toList) =
      agent.tips asked ++ (agent.signalsAt asked command).filterMap Signal.tip? := by
  cases command with
  | pause micros => simp [Command.operation?, signalsAt]
  | ask operation => exact agent.tips_concat asked operation

end Agent

namespace Player

variable {agent : Agent} {emitted : List String} {p q : Player}

/-- The tips that the agent's own listener has received, in order. -/
def heard (p : Player) : List String := p.trace.filterMap Event.heard?

theorem heard_note (p : Player) (events : List Event) :
    (p.note events).heard = p.heard ++ events.filterMap Event.heard? := List.filterMap_append

/-- The player listens to an agent that has given these tips: it shows the last of them as long as
it is running, and has handed them all on to the agent's own listener. -/
structure Attending (agent : Agent) (emitted : List String) (p : Player) : Prop where
  stores : agent.StoresSlot
  slot : p.slot = .player
  tip : p.tip = if p.status = .running then emitted.getLast? else none
  heard : p.heard = if agent.slot = .own then emitted else []

namespace Attending

/-- What neither tips nor changes the status is of no matter. -/
theorem congr (h : Attending agent emitted p) (hslot : q.slot = p.slot) (htip : q.tip = p.tip)
    (hstatus : q.status = p.status) (hheard : q.heard = p.heard) : Attending agent emitted q where
  stores := h.stores
  slot := hslot.trans h.slot
  tip := by rw [htip, hstatus, h.tip]
  heard := hheard.trans h.heard

theorem note {events : List Event} (h : Attending agent emitted p)
    (hevents : events.filterMap Event.heard? = []) : Attending agent emitted (p.note events) :=
  h.congr rfl rfl rfl (by rw [heard_note, hevents, List.append_nil])

/-- **Each tip counts once**: it is the last one now, and the listener hears of it. -/
theorem emit (h : Attending agent emitted p) (text : String) :
    Attending agent (emitted ++ [text]) (p.emit agent.slot text) := by
  have hown : (Event.tipped text :: ownListener agent.slot text).filterMap Event.heard? =
      if agent.slot = .own then [text] else [] := by
    rcases h.stores with hslot | hslot <;> rw [hslot] <;> rfl
  have noted : ∀ q : Player, q.heard = p.heard →
      (q.note (.tipped text :: ownListener agent.slot text)).heard =
        if agent.slot = .own then emitted ++ [text] else [] := by
    intro q hq
    rw [heard_note, hown, hq, h.heard]
    split <;> rfl
  unfold Player.emit
  split
  · split
    · next hrunning =>
      have hlast : some text = if p.status = .running then (emitted ++ [text]).getLast? else none :=
        by rw [if_pos hrunning, List.getLast?_concat]
      exact ⟨h.stores, h.slot, hlast, noted _ rfl⟩
    · next hrunning =>
      have hnone : p.tip = if p.status = .running then (emitted ++ [text]).getLast? else none := by
        rw [h.tip, if_neg hrunning, if_neg hrunning]
      exact ⟨h.stores, h.slot, hnone, noted p rfl⟩
  · next hother => exact absurd h.slot hother

theorem emits (h : Attending agent emitted p) (texts : List String) :
    Attending agent (emitted ++ texts) (texts.foldl (fun p text => p.emit agent.slot text) p) := by
  induction texts generalizing emitted p with
  | nil => rwa [List.append_nil]
  | cons text rest ih => simpa using ih (h.emit text)

theorem signals (h : Attending agent emitted p) (ss : List Signal) :
    Attending agent (emitted ++ ss.filterMap Signal.tip?) (p.signals agent.slot ss) := by
  induction ss generalizing emitted p with
  | nil => rwa [List.filterMap_nil, List.append_nil]
  | cons s rest ih =>
    cases s with
    | performed operation => exact ih (h.note rfl)
    | closed => exact ih (h.note rfl)
    | tip text =>
      have after := ih (h.emit text)
      rwa [List.append_assoc] at after

theorem cleanUp (h : Attending agent emitted p) (c : Cleanup) :
    Attending agent (emitted ++ c.tips) (p.cleanUp agent c) :=
  ((h.note rfl).emits c.tips).congr rfl rfl rfl rfl

theorem cleanUps (h : Attending agent emitted p) (cs : List Cleanup) :
    Attending agent (emitted ++ cs.flatMap Cleanup.tips)
      (cs.foldl (fun p c => p.cleanUp agent c) p) := by
  induction cs generalizing emitted p with
  | nil => rwa [List.flatMap_nil, List.append_nil]
  | cons c rest ih => simpa using ih (h.cleanUp c)

end Attending

/-! ## While a command is carried out -/

/-- The player once the agent has done the first `n` things while it carries a command out. -/
def during (p : Player) (agent : Agent) : Command → (n : Nat) → Player
  | .pause _, _ => p
  | .ask operation, n =>
    { p.note [.asked operation] with asked := p.asked ++ [operation] }.signals agent.slot
      ((agent.respond p.asked operation).signals.take n)

/-- When the agent has done everything the command is carried out. -/
theorem carryOut_eq_during (p : Player) (agent : Agent) (command : Command) :
    ∃ warnings, (p.carryOut agent command).1 =
      (p.during agent command (agent.signalsAt p.asked command).length).warn warnings := by
  cases command with
  | pause micros =>
    refine ⟨[], ?_⟩
    simp [carryOut, during, warn]
  | ask operation =>
    simp only [carryOut, ask, during, Agent.signalsAt, List.take_length]
    exact ⟨_, rfl⟩

/-- The player plays on, and listens to an agent that has given the tips of what it was asked. -/
structure Listens (agent : Agent) (p : Player) : Prop where
  running : p.status = .running
  attending : Attending agent (agent.tips p.asked) p

namespace Listens

theorem congr (h : Listens agent p) (hasked : q.asked = p.asked) (hslot : q.slot = p.slot)
    (htip : q.tip = p.tip) (hstatus : q.status = p.status) (hheard : q.heard = p.heard) :
    Listens agent q where
  running := hstatus.trans h.running
  attending := by
    rw [hasked]
    exact h.attending.congr hslot htip hstatus hheard

theorem during (h : Listens agent p) (command : Command) (n : Nat) :
    Attending agent
      (agent.tips p.asked ++ ((agent.signalsAt p.asked command).take n).filterMap Signal.tip?)
      (p.during agent command n) := by
  cases command with
  | pause micros => simpa [Agent.signalsAt, Player.during] using h.attending
  | ask operation =>
    have asked : Attending agent (agent.tips p.asked)
        { p.note [.asked operation] with asked := p.asked ++ [operation] } :=
      (h.attending.note rfl).congr rfl rfl rfl rfl
    exact asked.signals _

theorem carryOut (h : Listens agent p) (command : Command) :
    Listens agent (p.carryOut agent command).1 := by
  obtain ⟨-, hasked, -, -⟩ := carryOut_eq p agent command
  obtain ⟨warnings, hcarried⟩ := carryOut_eq_during p agent command
  refine ⟨(carryOut_still p agent command).status.trans h.running, ?_⟩
  have done := h.during command (agent.signalsAt p.asked command).length
  rw [List.take_length, ← Agent.tips_append, ← hasked] at done
  have warned := done.congr (q := (p.during agent command _).warn warnings) rfl rfl rfl rfl
  rwa [← hcarried] at warned

theorem keep (h : Listens agent p) (step : Step) (yield : Yield) :
    Listens agent (p.keep step yield).1 := by
  unfold Player.keep
  split
  · exact h
  · split
    · exact h.congr rfl rfl rfl rfl rfl
    · exact h

theorem playStep (h : Listens agent p) (step : Step) : Listens agent (p.playStep agent step).1 := by
  have carried := h.carryOut step.command
  unfold Player.playStep
  split <;> rename_i hq <;> rw [hq] at carried
  · exact carried.keep step _
  all_goals exact carried

theorem warn (h : Listens agent p) (warnings : List Warning) : Listens agent (p.warn warnings) :=
  h.congr rfl rfl rfl rfl rfl

theorem atStep (h : Listens agent p) (index step : Nat) : Listens agent (p.atStep index step) :=
  h.congr rfl rfl rfl rfl rfl

theorem playItem (h : Listens agent p) (registry : Registry) (item : Item) :
    Listens agent (p.playItem agent registry item).1 := by
  have warned := h.warn (Step.resolve registry item).run.warnings
  unfold Player.playItem
  dsimp only
  split
  · exact warned
  · exact warned.playStep _

theorem playFlow (h : Listens agent p) (registry : Registry) (index : Nat) (items : List Item)
    (first : Nat) : Listens agent (Player.playFlow agent registry index first items p).1 :=
  playFlow_keeps (fun step item h => (h.atStep index step).playItem registry item) items first h

theorem setTask (h : Listens agent p) (index : Nat) (status : Status) (error : Option Error) :
    Listens agent (p.setTask index status error) :=
  h.congr rfl rfl rfl rfl ((heard_note _ _).trans (List.append_nil _))

theorem opening (h : Listens agent p) (index : Nat) : Listens agent (p.opening index) :=
  (h.setTask index .running none).congr rfl rfl rfl rfl rfl

theorem askReport (h : Listens agent p) : Listens agent (p.askReport agent) :=
  h.congr rfl rfl rfl rfl rfl

theorem playTask (h : Listens agent p) (registry : Registry) (index : Nat) (task : Task) :
    Listens agent (Player.playTask agent registry index task p).1 :=
  playTask_keeps ((h.opening index).playFlow registry index task.flow 0) fun status error h =>
    (h.setTask index status error).askReport

theorem playTasks (h : Listens agent p) (registry : Registry) (tasks : List Task) (index : Nat) :
    Listens agent (Player.playTasks agent registry index tasks p).1 :=
  playTasks_keeps (fun index task h => h.playTask registry index task) tasks index h

end Listens

theorem during_still (p : Player) (agent : Agent) (command : Command) (n : Nat) :
    Still p (p.during agent command n) := by
  cases command with
  | pause micros => exact .refl p
  | ask operation =>
    have asked : Still p { p.note [.asked operation] with asked := p.asked ++ [operation] } :=
      ⟨by constructor <;> rfl, rfl⟩
    exact asked.trans (signals_still _ _ _)

/-! ## The beginning and the end of a run -/

/-- A run begins with no tip, and the player takes the slot. -/
theorem ready_listens (hslot : agent.StoresSlot) (hasked : p.asked = []) (htip : p.tip = none)
    (hheard : p.heard = []) : Listens agent (p.ready agent) where
  running := rfl
  attending := by
    have hnone : agent.tips (p.ready agent).asked = [] := congrArg agent.tips hasked
    rw [hnone]
    refine ⟨hslot, ?_, htip, ?_⟩
    · rcases hslot with hslot | hslot <;> simp [ready, hslot, listening]
    · refine (heard_note p _).trans ?_
      rw [hheard]
      exact (ite_self _).symm

/-- No run is in progress, and no tip is left. -/
def Rests (p : Player) : Prop := p.status ≠ .running ∧ p.tip = none

theorem Attending.finish {ready : Ready} (h : Attending ready.agent emitted p) {status : Status}
    (hstatus : status ≠ .running) :
    (p.finish ready status).Rests ∧ (p.finish ready status).heard =
      if ready.agent.slot = .own then emitted ++ ready.cleanups.flatMap Cleanup.tips else [] := by
  have decided : Attending ready.agent emitted { p with status, tip := none } :=
    ⟨h.stores, h.slot, (if_neg hstatus).symm, h.heard⟩
  have cleaned := decided.cleanUps ready.cleanups
  have hended : (p.finish ready status).status ≠ .running := by
    rw [finish_status]
    exact hstatus
  exact ⟨⟨hended, cleaned.tip.trans (if_neg hended)⟩, cleaned.heard⟩

/-- What a run has come to in the end: the player rests if the run comes back, and the agent's own
listener has heard every tip. -/
theorem Listens.concluded {ready : Ready} (h : Listens ready.agent p) (e : Ending Unit) :
    ((runEnd e).isLost = false → (p.concluded ready (runEnd e)).Rests) ∧
      (p.concluded ready (runEnd e)).heard =
        if ready.agent.slot = .own then
          ready.agent.tips (p.concluded ready (runEnd e)).asked ++
            (if (runEnd e).isLost then [] else ready.cleanups.flatMap Cleanup.tips)
        else [] := by
  have finished : ∀ status, status ≠ .running → (p.finish ready status).Rests ∧
      (p.finish ready status).heard = if ready.agent.slot = .own then
        ready.agent.tips (p.finish ready status).asked ++ ready.cleanups.flatMap Cleanup.tips
      else [] := by
    intro status hstatus
    rw [(finish_quiet p ready status).asked]
    exact h.attending.finish hstatus
  have lost : p.heard = if ready.agent.slot = .own then ready.agent.tips p.asked ++ [] else [] := by
    rw [List.append_nil]
    exact h.attending.heard
  cases e with
  | done =>
    obtain ⟨hrests, hheard⟩ := finished .done nofun
    exact ⟨fun _ => hrests, hheard⟩
  | failed error =>
    obtain ⟨hrests, hheard⟩ := finished .error nofun
    exact ⟨fun _ => hrests, hheard⟩
  | hung => exact ⟨nofun, lost⟩
  | crashed => exact ⟨nofun, lost⟩

/-! ## Between runs -/

theorem emit_rests (h : p.Rests) (before : TipSlot) (text : String) :
    (p.emit before text).Rests := by
  unfold emit
  split
  · rw [if_neg h.1]
    exact h
  · exact h

theorem signals_rests (h : p.Rests) (before : TipSlot) (ss : List Signal) :
    (p.signals before ss).Rests :=
  List.foldlRecOn ss _ h fun q hq s _ => by
    cases s with
    | performed operation => exact hq
    | closed => exact hq
    | tip text => exact emit_rests hq before text

theorem call_rests (hset : p.isSetUp = true) (h : p.Rests) (c : Call) : (p.call c).Rests := by
  cases c with
  | run =>
    have hended : Status.error ≠ .running := by decide
    rw [call, run_again hset]
    exact ⟨hended, h.2⟩
  | destroy =>
    rw [call]
    cases hheld : p.held with
    | none =>
      rw [destroy_of_held_eq_none hheld]
      exact h
    | some agent =>
      have told : Rests { p.note [.destroyed] with held := none } := h
      rw [destroy_eq hheld]
      exact signals_rests told _ _

theorem calls_rests (hset : p.isSetUp = true) (h : p.Rests) (cs : List Call) :
    (p.calls cs).Rests := by
  induction cs generalizing p with
  | nil => exact h
  | cons c cs ih => exact ih (call_isSetUp hset c) (call_rests hset h c)

/-- Before the first run there is nothing to be destroyed. -/
theorem calls_rests_of_run (hheld : p.held = none) (h : p.Rests) (hrun : p.run.1.Rests)
    (cs : List Call) : (p.calls cs).Rests := by
  induction cs with
  | nil => exact h
  | cons c cs ih =>
    cases c with
    | run => exact calls_rests (run_isSetUp p) hrun cs
    | destroy => rwa [calls_cons, call, destroy_of_held_eq_none hheld]

/-! ## Runs -/

/-- The player begins to carry out a step of a run: the tasks before its own were played and the
run went on, and so were the items before its own in its task. -/
inductive Executes (agent : Agent) (registry : Registry) (start : Player) : Player → Step → Prop
  | mk {i j : Nat} {task : Task} {item : Item} {q r : Player} {step : Step}
    (htask : start.script.tasks[i]? = some task) (hitem : task.flow[j]? = some item)
    (htasks : playTasks agent registry 0 (start.script.tasks.take i) (start.ready agent) =
      (q, .done ()))
    (hflow : playFlow agent registry i 0 (task.flow.take j) (q.opening i) = (r, .done ()))
    (hstep : (Step.resolve registry item).run.value = .ok step) :
    Executes agent registry start ((r.atStep i j).warn (Step.resolve registry item).run.warnings) step

theorem Executes.listens {registry : Registry} {start : Player} {step : Step}
    (h : Executes agent registry start p step) (hready : Listens agent (start.ready agent)) :
    Listens agent p := by
  cases h with
  | @mk i j task item q r _ _ _ htasks hflow _ =>
    have played := hready.playTasks registry (start.script.tasks.take i) 0
    rw [htasks] at played
    have flowed := (played.opening i).playFlow registry i (task.flow.take j) 0
    rw [hflow] at flowed
    exact (flowed.atStep i j).warn _

/-- Runs after the first neither ask nor hear anything. -/
theorem runTimes_quiet (h : p.isSetUp = true) (n : Nat) :
    (runTimes n p).1.asked = p.asked ∧ (runTimes n p).1.heard = p.heard := by
  cases n with
  | zero => exact ⟨rfl, rfl⟩
  | succ n =>
    rw [runTimes_again h]
    exact ⟨rfl, rfl⟩

/-- **What becomes of an agent's tips**, if its tip slot can be changed. Whenever a run gives
control back there is no tip, before and after whatever else is asked of the player; on an agent
that answers every run does. While a step is carried out, the tip is the last one that the agent
has given in the run. After any number of runs the agent's own listener, if it has one, has
received every tip once, in order: those that went with what the agent was asked for, and those of
the cleanups, unless the run never came to them. An agent that is refused was asked for nothing,
and nothing was heard of it. -/
theorem run_tips {agent : Agent} (hslot : agent.StoresSlot) (script : Script) (config : Config)
    (path : Option String) (cleanups : List Cleanup) (takes : Nat → Bool) :
    let start := Player.new script config path (.ready agent cleanups) takes
    (agent.Answers → start.run.2.isLost = false) ∧
    (start.run.2.isLost = false → ∀ cs, (start.calls cs).tip = none) ∧
    (∀ registry, Registry.build agent.actions = .ok registry →
      (∀ p step n, Executes agent registry start p step →
        (p.during agent step.command n).tip = (agent.tips p.asked ++
          ((agent.signalsAt p.asked step.command).take n).filterMap Signal.tip?).getLast?) ∧
      ∀ n, (runTimes (n + 1) start).1.heard =
        if agent.slot = .own then
          agent.tips (runTimes (n + 1) start).1.asked ++
            (if start.run.2.isLost then [] else cleanups.flatMap Cleanup.tips)
        else []) ∧
    ∀ e, Registry.build agent.actions = .error e → ∀ n,
      (runTimes (n + 1) start).1.asked = [] ∧ (runTimes (n + 1) start).1.heard = [] := by
  intro start
  have hready : Listens agent (start.ready agent) := ready_listens hslot rfl rfl rfl
  have later : ∀ n, (runTimes (n + 1) start).1.asked = start.run.1.asked ∧
      (runTimes (n + 1) start).1.heard = start.run.1.heard :=
    fun n => runTimes_quiet (run_isSetUp start) n
  have accepted : ∀ registry, Registry.build agent.actions = .ok registry →
      (start.run.2.isLost = false → start.run.1.Rests) ∧ start.run.1.heard =
        if agent.slot = .own then agent.tips start.run.1.asked ++
          (if start.run.2.isLost then [] else cleanups.flatMap Cleanup.tips) else [] := by
    intro registry hr
    let ready : Ready := ⟨agent, registry, cleanups⟩
    have played : Listens ready.agent
        (playTasks agent registry 0 script.tasks (start.ready agent)).1 :=
      hready.playTasks registry script.tasks 0
    rw [run_accepted (p := start) rfl (Setup.outcome_of_build hr cleanups)]
    exact played.concluded _
  have refused : ∀ e, Registry.build agent.actions = .error e → start.run =
      ({ start.note [.setup script.target] with
        isSetUp := true, status := .error, setupError := some e }, .finished .error) :=
    fun e he => run_refused (p := start) rfl (Setup.outcome_of_clash he cleanups)
  have hrests : start.run.2.isLost = false → start.run.1.Rests := by
    cases hr : Registry.build agent.actions with
    | ok registry => exact (accepted registry hr).1
    | error e =>
      rw [refused e hr]
      exact fun _ => ⟨nofun, rfl⟩
  refine ⟨fun ha => ?_, fun hback cs => ?_, fun registry hr => ⟨?_, fun n => ?_⟩, fun e he n => ?_⟩
  · cases hr : Registry.build agent.actions with
    | ok registry =>
      obtain ⟨status, hend⟩ :=
        run_finished (p := start) rfl (Setup.outcome_of_build hr cleanups) ha
      rw [hend]
      rfl
    | error e =>
      rw [refused e hr]
      rfl
  · exact (calls_rests_of_run (p := start) rfl ⟨nofun, rfl⟩ (hrests hback) cs).2
  · intro p step n hp
    have listens := hp.listens hready
    have hrunning : (p.during agent step.command n).status = .running :=
      (during_still p agent step.command n).status.trans listens.running
    rw [(listens.during step.command n).tip, if_pos hrunning]
  · rw [(later n).2, (later n).1]
    exact (accepted registry hr).2
  · rw [(later n).2, (later n).1, refused e he]
    exact ⟨rfl, rfl⟩

end Player

/-- An agent that gives two tips with every operation, and then does not carry it out. -/
def Agent.talking : Agent := { Agent.idle with
  slot := .own
  respond := fun asked _ =>
    ⟨[.tip (if asked.isEmpty then "looking" else "still looking"), .tip "giving up"],
      .failure "not now"⟩ }

instance (e : Ending Unit) : Decidable (e = .done ()) :=
  match e with
  | .done _ => isTrue rfl
  | .failed _ | .hung | .crashed => isFalse nofun

theorem Agent.talking_answers : Agent.talking.Answers := fun _ _ => .inr ⟨"not now", rfl⟩

namespace Player

theorem run_tips_errand :
    let start := Player.new errand ⟨"", false, ""⟩ none (.ready .talking teardown) fun _ => true
    let fatal : Step := ⟨.act, none, .ask (.act "look" [])⟩
    Agent.talking.StoresSlot ∧ Agent.talking.Answers ∧ start.run.2.isLost = false ∧
      (start.calls [.destroy, .run, .run, .destroy]).tip = none ∧
      (∃ p, Executes .talking .empty start p fatal ∧
        (p.during .talking fatal.command 0).tip = some "giving up" ∧
        (p.during .talking fatal.command 1).tip = some "still looking") ∧
      (runTimes 3 start).1.heard = ["looking", "giving up", "still looking", "giving up",
        "still looking", "giving up", "closing", "closed"] := by
  intro start fatal
  have hslot : Agent.talking.StoresSlot := .inr rfl
  obtain ⟨hback, hrest, haccepted, -⟩ :=
    run_tips hslot errand ⟨"", false, ""⟩ none teardown fun _ => true
  obtain ⟨hshown, hheard⟩ := haccepted .empty rfl
  have hlost := hback Agent.talking_answers
  -- The step is the first of the fourth task.
  have pair : ∀ x : Player × Ending Unit, x.2 = .done () → x = (x.1, .done ()) := by
    rintro ⟨q, e⟩ rfl
    rfl
  have hplayed := pair (playTasks .talking .empty 0 (start.script.tasks.take 3)
    (start.ready .talking)) (by decide +kernel)
  have hfatal : Executes .talking .empty start _ fatal :=
    .mk (i := 3) (j := 0) rfl rfl hplayed rfl rfl
  refine ⟨hslot, Agent.talking_answers, hlost, hrest hlost _, ⟨_, hfatal, ?_, ?_⟩, ?_⟩
  · exact (hshown _ _ 0 hfatal).trans (by decide +kernel)
  · exact (hshown _ _ 1 hfatal).trans (by decide +kernel)
  · rw [hheard 2]
    decide +kernel

end Player

end Runbook
