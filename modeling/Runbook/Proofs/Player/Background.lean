/-
What playing neither reads nor changes.

A player is made from a script, a destination and a setup, and setting up
leaves an agent or an error. Playing looks at none of that: played against the
background of another player, a task does the same (`playTask_against`, and
`playTasks_against` for all of them). So two runs that differ in their setup
alone differ in nothing that is played, and a player keeps its own background
(`playTasks_kept`).
-/
import Runbook.Proofs.Player.Outcome

namespace Runbook.Player

/-- The player against the background of another. -/
def against (p o : Player) : Player :=
  { p with
    script := o.script, destination := o.destination, setup := o.setup
    isSetUp := o.isSetUp, setupError := o.setupError, held := o.held }

/-- The player that a piece of a run leaves, against the background of another. -/
def behind {α : Type} (o : Player) : Player × α → Player × α := Prod.map (·.against o) id

theorem behind_mk {α : Type} (o p : Player) (a : α) : behind o (p, a) = (p.against o, a) := rfl

variable (p o : Player) (agent : Agent) (registry : Registry)

/-! ## Tips and signals -/

theorem emit_against (before : TipSlot) (text : String) :
    (p.against o).emit before text = (p.emit before text).against o := by
  unfold emit
  rw [show (p.against o).slot = p.slot from rfl]
  cases p.slot with
  | player =>
    rw [show (p.against o).status = p.status from rfl]
    dsimp only
    split <;> rfl
  | fixed | vacant | own => rfl

theorem signal_against (before : TipSlot) (s : Signal) :
    (p.against o).signal before s = (p.signal before s).against o := by
  cases s with
  | performed operation => rfl
  | closed => rfl
  | tip text => exact emit_against p o before text

theorem signals_against (before : TipSlot) (ss : List Signal) :
    (p.against o).signals before ss = (p.signals before ss).against o := by
  have given : ss.foldl (fun p s => p.signal before s) (p.against o) =
      (ss.foldl (fun p s => p.signal before s) p).against o :=
    List.foldl_hom (·.against o) fun p s => signal_against p o before s
  exact given

/-! ## Steps -/

theorem ask_against (operation : Operation) :
    (p.against o).ask agent operation = behind o (p.ask agent operation) := by
  have hsignals := signals_against
    { p.note [.asked operation] with asked := p.asked ++ [operation] } o agent.slot
    (agent.respond p.asked operation).signals
  exact Prod.ext hsignals rfl

theorem carryOut_against (command : Command) :
    (p.against o).carryOut agent command = behind o (p.carryOut agent command) := by
  cases command with
  | pause micros => rfl
  | ask operation =>
    simp only [carryOut, ask_against]
    rfl

theorem keep_against (step : Step) (yield : Yield) :
    (p.against o).keep step yield = behind o (p.keep step yield) := by
  unfold keep
  cases yield.value with
  | none => rfl
  | some value =>
    dsimp only
    split <;> rfl

theorem playStep_against (step : Step) :
    (p.against o).playStep agent step = behind o (p.playStep agent step) := by
  unfold playStep
  rw [carryOut_against]
  cases p.carryOut agent step.command with | mk q ending
  cases ending with
  | done yield =>
    simp only [behind_mk, keep_against]
    rfl
  | failed e => rfl
  | hung => rfl
  | crashed => rfl

theorem playItem_against (item : Item) :
    (p.against o).playItem agent registry item = behind o (p.playItem agent registry item) := by
  unfold playItem
  dsimp only
  cases (Step.resolve registry item).run.value with
  | error e => rfl
  | ok step => exact playStep_against (p.warn (Step.resolve registry item).run.warnings) o agent step

theorem playFlow_against (index first : Nat) (items : List Item) :
    playFlow agent registry index first items (p.against o) =
      behind o (playFlow agent registry index first items p) := by
  induction items generalizing first p with
  | nil => rfl
  | cons item rest ih =>
    have hplay := playItem_against (p.atStep index first) o agent registry item
    rw [playFlow_cons, playFlow_cons, show (p.against o).atStep index first =
      (p.atStep index first).against o from rfl, hplay]
    cases (p.atStep index first).playItem agent registry item with | mk q ending
    cases ending with
    | done => exact ih q (first + 1)
    | failed e => rfl
    | hung => rfl
    | crashed => rfl

/-! ## Tasks -/

theorem playTask_against (index : Nat) (task : Task) :
    playTask agent registry index task (p.against o) =
      behind o (playTask agent registry index task p) := by
  rw [playTask_eq, playTask_eq, show (p.against o).opening index =
    (p.opening index).against o from rfl, playFlow_against]
  cases playFlow agent registry index 0 task.flow (p.opening index) with | mk q ending
  cases ending <;> rfl

theorem playTasks_against (index : Nat) (tasks : List Task) :
    playTasks agent registry index tasks (p.against o) =
      behind o (playTasks agent registry index tasks p) := by
  induction tasks generalizing index p with
  | nil => rfl
  | cons task rest ih =>
    rw [playTasks, playTasks, playTask_against]
    cases playTask agent registry index task p with | mk q ending
    cases ending with
    | done => exact ih q (index + 1)
    | failed e =>
      simp only [behind_mk]
      split
      · exact ih q (index + 1)
      · rfl
    | hung => rfl
    | crashed => rfl

/-- Playing tasks keeps the background: it is played against as well as before. -/
theorem playTasks_kept (index : Nat) (tasks : List Task) :
    (playTasks agent registry index tasks p).1 =
      (playTasks agent registry index tasks p).1.against p :=
  congrArg Prod.fst (playTasks_against p p agent registry index tasks)

theorem playTasks_held (index : Nat) (tasks : List Task) :
    (playTasks agent registry index tasks p).1.held = p.held := by
  rw [playTasks_kept]
  rfl

theorem playTasks_isSetUp (index : Nat) (tasks : List Task) :
    (playTasks agent registry index tasks p).1.isSetUp = p.isSetUp := by
  rw [playTasks_kept]
  rfl

/-! ## Cleaning up -/

theorem cleanUp_against (c : Cleanup) :
    (p.against o).cleanUp agent c = (p.cleanUp agent c).against o := by
  have tips : c.tips.foldl (fun p text => p.emit agent.slot text)
      ((p.note [.cleanup c.name]).against o) =
        (c.tips.foldl (fun p text => p.emit agent.slot text) (p.note [.cleanup c.name])).against o :=
    List.foldl_hom (·.against o) fun p text => emit_against p o agent.slot text
  exact congrArg (·.warn (cleanupWarnings c.outcome)) tips

theorem finish_against (ready : Ready) (status : Status) :
    (p.against o).finish ready status = (p.finish ready status).against o := by
  let decided := { p with status, tip := none }
  have cleanUps : ready.cleanups.foldl (fun p c => p.cleanUp ready.agent c) (decided.against o) =
      (ready.cleanups.foldl (fun p c => p.cleanUp ready.agent c) decided).against o :=
    List.foldl_hom (·.against o) fun p c => cleanUp_against p o ready.agent c
  exact congrArg (fun p : Player => { p with slot := ready.agent.slot }) cleanUps

end Runbook.Player
