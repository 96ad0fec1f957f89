/-
What each piece of a run adds to the trace.

Nothing is ever taken back from the trace. `Grows kind p q` says that `q` has
the trace of `p` with events of some kind after it. One lemma says so of each
operation of a player, from a tip up to all tasks of a script. What a reader of
the trace picks out of it (the cleanups, the notices, the times the agent was
told to shut down) is therefore left alone by whatever adds other kinds of
event.
-/
import Runbook.Proofs.Player.Outcome

namespace Runbook

namespace Event

/-- A tip, on its way through the slot. -/
def isTip : Event → Bool
  | .tipped _ | .heard _ => true
  | _ => false

/-- What comes from the agent while it answers. -/
def isSignal : Event → Bool
  | .performed _ | .closed => true
  | e => e.isTip

/-- What happens between the player and the agent while a step is played. -/
def isOfStep : Event → Bool
  | .asked _ => true
  | e => e.isSignal

/-- What happens while a task is played. -/
def isOfTask : Event → Bool
  | .notified .. => true
  | e => e.isOfStep

/-- What happens while things are cleaned up. -/
def isOfCleanup : Event → Bool
  | .cleanup _ => true
  | e => e.isTip

/-- The agent is set up. -/
def isSetup : Event → Bool
  | .setup _ => true
  | _ => false

/-- What happens while the agent shuts down. -/
def isOfShutdown : Event → Bool
  | .destroyed => true
  | e => e.isSignal

/-- The agent is told to shut down. -/
def isDestroyed : Event → Bool
  | .destroyed => true
  | _ => false

/-- The cleanup that begins, if that is what happens. -/
def cleanup? : Event → Option String
  | .cleanup name => some name
  | _ => none

theorem isSignal_of_isTip {e : Event} (h : e.isTip = true) : e.isSignal = true := by
  unfold isSignal
  split
  · rfl
  · rfl
  · exact h

theorem isOfStep_of_isSignal {e : Event} (h : e.isSignal = true) : e.isOfStep = true := by
  unfold isOfStep
  split
  · rfl
  · exact h

theorem isOfTask_of_isOfStep {e : Event} (h : e.isOfStep = true) : e.isOfTask = true := by
  unfold isOfTask
  split
  · rfl
  · exact h

theorem isOfCleanup_of_isTip {e : Event} (h : e.isTip = true) : e.isOfCleanup = true := by
  unfold isOfCleanup
  split
  · rfl
  · exact h

theorem isOfShutdown_of_isSignal {e : Event} (h : e.isSignal = true) :
    e.isOfShutdown = true := by
  unfold isOfShutdown
  split
  · rfl
  · exact h

end Event

namespace Player

/-- The cleanups that began, in order. -/
def cleaned (p : Player) : List String := p.trace.filterMap Event.cleanup?

/-- How often the agent was told to shut down. -/
def destructions (p : Player) : Nat := p.trace.countP Event.isDestroyed

/-- The trace of `q` is that of `p` with events of a kind after it. -/
def Grows (kind : Event → Bool) (p q : Player) : Prop :=
  ∃ es, q.trace = p.trace ++ es ∧ ∀ e ∈ es, kind e = true

namespace Grows

variable {kind kind' : Event → Bool} {p q r : Player}

theorem of_trace_eq (h : q.trace = p.trace) : Grows kind p q :=
  ⟨[], by rw [h, List.append_nil], fun _ he => absurd he List.not_mem_nil⟩

theorem refl (p : Player) : Grows kind p p := of_trace_eq rfl

theorem trans (h : Grows kind p q) (h' : Grows kind q r) : Grows kind p r := by
  obtain ⟨es, hq, hes⟩ := h
  obtain ⟨es', hr, hes'⟩ := h'
  refine ⟨es ++ es', by rw [hr, hq, List.append_assoc], fun e he => ?_⟩
  rcases List.mem_append.mp he with he | he
  · exact hes e he
  · exact hes' e he

theorem mono (hk : ∀ {e}, kind e = true → kind' e = true) (h : Grows kind p q) :
    Grows kind' p q := by
  obtain ⟨es, hq, hes⟩ := h
  exact ⟨es, hq, fun e he => hk (hes e he)⟩

/-- What only picks out other events finds nothing new. -/
theorem filterMap_eq {α : Type} {pick : Event → Option α} (h : Grows kind p q)
    (hpick : ∀ e, kind e = true → pick e = none) :
    q.trace.filterMap pick = p.trace.filterMap pick := by
  obtain ⟨es, hq, hes⟩ := h
  rw [hq, List.filterMap_append,
    List.filterMap_eq_nil_iff.mpr fun e he => hpick e (hes e he), List.append_nil]

/-- No cleanup begins while other things happen. -/
theorem cleaned_eq (h : Grows kind p q) (hkind : ∀ name, kind (.cleanup name) = false) :
    q.cleaned = p.cleaned := by
  refine h.filterMap_eq fun e he => ?_
  cases e with
  | cleanup name =>
    rw [hkind name] at he
    cases he
  | _ => rfl

theorem destructions_eq (h : Grows kind p q) (hkind : kind .destroyed = false) :
    q.destructions = p.destructions := by
  obtain ⟨es, hq, hes⟩ := h
  have none : es.countP Event.isDestroyed = 0 := by
    refine List.countP_eq_zero.mpr fun e he hd => ?_
    cases e with
    | destroyed =>
      have := hes _ he
      rw [hkind] at this
      cases this
    | _ => cases hd
  rw [destructions, hq, List.countP_append, none, Nat.add_zero]
  rfl

end Grows

theorem note_grows {kind : Event → Bool} {es : List Event} (h : ∀ e ∈ es, kind e = true)
    (p : Player) : Grows kind p (p.note es) := ⟨es, rfl, h⟩

theorem warn_grows {kind : Event → Bool} (p : Player) (warnings : List Warning) :
    Grows kind p (p.warn warnings) := .of_trace_eq rfl

/-! ## Tips and signals -/

theorem ownListener_isTip (slot : TipSlot) (text : String) :
    ∀ e ∈ ownListener slot text, e.isTip = true := by
  unfold ownListener
  split <;> simp [Event.isTip]

theorem emit_grows (p : Player) (before : TipSlot) (text : String) :
    Grows Event.isTip p (p.emit before text) := by
  have tipped : ∀ e ∈ Event.tipped text :: ownListener before text, e.isTip = true := by
    intro e he
    rcases List.mem_cons.mp he with rfl | he
    · rfl
    · exact ownListener_isTip before text e he
  unfold emit
  split
  · split
    · exact note_grows tipped { p with tip := some text }
    · exact note_grows tipped p
  · exact note_grows (ownListener_isTip _ text) p

theorem emits_grows (before : TipSlot) (texts : List String) (p : Player) :
    Grows Event.isTip p (texts.foldl (fun p text => p.emit before text) p) :=
  List.foldlRecOn texts _ (.refl p) fun q h text _ => h.trans (emit_grows q before text)

theorem signal_grows (p : Player) (before : TipSlot) (s : Signal) :
    Grows Event.isSignal p (p.signal before s) := by
  cases s with
  | performed operation => exact note_grows (by simp [Event.isSignal]) p
  | closed => exact note_grows (by simp [Event.isSignal]) p
  | tip text => exact (emit_grows p before text).mono Event.isSignal_of_isTip

theorem signals_grows (before : TipSlot) (ss : List Signal) (p : Player) :
    Grows Event.isSignal p (p.signals before ss) :=
  List.foldlRecOn ss _ (.refl p) fun q h s _ => h.trans (signal_grows q before s)

/-! ## Steps -/

theorem ask_grows (p : Player) (agent : Agent) (operation : Operation) :
    Grows Event.isOfStep p (p.ask agent operation).1 := by
  have asked : Grows Event.isOfStep p
      { p.note [.asked operation] with asked := p.asked ++ [operation] } :=
    note_grows (by simp [Event.isOfStep]) p
  exact asked.trans ((signals_grows _ _ _).mono Event.isOfStep_of_isSignal)

theorem carryOut_grows (p : Player) (agent : Agent) (command : Command) :
    Grows Event.isOfStep p (p.carryOut agent command).1 := by
  cases command with
  | pause micros => exact .refl p
  | ask operation => exact (ask_grows p agent operation).trans (warn_grows _ _)

theorem keep_trace (p : Player) (step : Step) (yield : Yield) :
    (p.keep step yield).1.trace = p.trace := by
  unfold keep
  split
  · rfl
  · split <;> rfl

theorem playStep_grows (p : Player) (agent : Agent) (step : Step) :
    Grows Event.isOfStep p (p.playStep agent step).1 := by
  have carried := carryOut_grows p agent step.command
  unfold playStep
  split <;> rename_i hq <;> rw [hq] at carried
  · exact carried.trans (.of_trace_eq (keep_trace _ step _))
  all_goals exact carried

theorem playItem_grows (p : Player) (agent : Agent) (registry : Registry) (item : Item) :
    Grows Event.isOfStep p (p.playItem agent registry item).1 := by
  have warned : Grows Event.isOfStep p (p.warn (Step.resolve registry item).run.warnings) :=
    warn_grows p _
  unfold playItem
  dsimp only
  split
  · exact warned
  · exact warned.trans (playStep_grows _ agent _)

theorem playFlow_grows (agent : Agent) (registry : Registry) (index : Nat) (items : List Item)
    (first : Nat) (p : Player) :
    Grows Event.isOfStep p (playFlow agent registry index first items p).1 := by
  refine playFlow_keeps (fun {q} step item h => ?_) items first (.refl p)
  have moved : Grows Event.isOfStep q (q.atStep index step) := .of_trace_eq rfl
  exact (h.trans moved).trans (playItem_grows _ agent registry item)

/-! ## Tasks -/

theorem setTask_grows (p : Player) (index : Nat) (status : Status) (error : Option Error) :
    Grows Event.isOfTask p (p.setTask index status error) :=
  ⟨_, rfl, by simp [Event.isOfTask]⟩

theorem playTask_grows (agent : Agent) (registry : Registry) (index : Nat) (task : Task)
    (p : Player) : Grows Event.isOfTask p (playTask agent registry index task p).1 := by
  have opened : Grows Event.isOfTask p (p.opening index) := setTask_grows p index .running none
  have played := (playFlow_grows agent registry index task.flow 0 (p.opening index)).mono
    Event.isOfTask_of_isOfStep
  exact playTask_keeps (opened.trans played) fun status error h =>
    h.trans (setTask_grows _ index status error)

theorem playTasks_grows (agent : Agent) (registry : Registry) (tasks : List Task) (index : Nat)
    (p : Player) : Grows Event.isOfTask p (playTasks agent registry index tasks p).1 :=
  playTasks_keeps (fun index task h => h.trans (playTask_grows agent registry index task _))
    tasks index (.refl p)

/-! ## The beginning and the end of a run, and the end of the agent -/

theorem ready_grows (p : Player) (agent : Agent) : Grows Event.isSetup p (p.ready agent) :=
  ⟨_, rfl, by simp [Event.isSetup]⟩

/-- No cleanup begins while the tasks are played. -/
theorem played_cleaned (p : Player) (agent : Agent) (registry : Registry) (tasks : List Task) :
    (playTasks agent registry 0 tasks (p.ready agent)).1.cleaned = p.cleaned := by
  rw [(playTasks_grows agent registry tasks 0 _).cleaned_eq fun _ => rfl,
    (ready_grows p agent).cleaned_eq fun _ => rfl]

theorem cleanUp_grows (p : Player) (agent : Agent) (c : Cleanup) :
    Grows Event.isOfCleanup p (p.cleanUp agent c) := by
  have begun : Grows Event.isOfCleanup p (p.note [.cleanup c.name]) :=
    note_grows (by simp [Event.isOfCleanup]) p
  exact (begun.trans ((emits_grows agent.slot c.tips _).mono Event.isOfCleanup_of_isTip)).trans
    (warn_grows _ _)

theorem finish_grows (p : Player) (ready : Ready) (status : Status) :
    Grows Event.isOfCleanup p (p.finish ready status) := by
  have decided : Grows Event.isOfCleanup p { p with status, tip := none } := .of_trace_eq rfl
  have cleanUps := List.foldlRecOn (motive := Grows Event.isOfCleanup p) ready.cleanups
    (fun p c => p.cleanUp ready.agent c) decided fun q h c _ => h.trans (cleanUp_grows q _ c)
  exact cleanUps.trans (.of_trace_eq rfl)

/-- A cleanup begins once, and begins no other. -/
theorem cleanUp_cleaned (p : Player) (agent : Agent) (c : Cleanup) :
    (p.cleanUp agent c).cleaned = p.cleaned ++ [c.name] := by
  have tips := (emits_grows agent.slot c.tips (p.note [.cleanup c.name])).cleaned_eq fun _ => rfl
  exact tips.trans List.filterMap_append

/-- **Every cleanup begins exactly once**, in the order of the list, at the end of a run. -/
theorem finish_cleaned (p : Player) (ready : Ready) (status : Status) :
    (p.finish ready status).cleaned = p.cleaned ++ ready.cleanups.map Cleanup.name := by
  have cleanUps : ∀ (cs : List Cleanup) (p : Player),
      (cs.foldl (fun p c => p.cleanUp ready.agent c) p).cleaned =
        p.cleaned ++ cs.map Cleanup.name := by
    intro cs
    induction cs with
    | nil => simp
    | cons c cs ih =>
      intro p
      rw [List.foldl_cons, ih, cleanUp_cleaned]
      simp
  exact cleanUps ready.cleanups { p with status, tip := none }

/-- An agent that is held is told to shut down, and answers. -/
theorem destroy_eq {p : Player} {agent : Agent} (h : p.held = some agent) :
    p.destroy.1 = { p.note [.destroyed] with held := none }.signals agent.slot
      (agent.destroy p.asked).signals := by
  unfold destroy
  rw [h]

/-- Without an agent there is nothing to shut down. -/
theorem destroy_of_held_eq_none {p : Player} (h : p.held = none) : p.destroy.1 = p := by
  unfold destroy
  rw [h]

theorem destroy_destructions {p : Player} {agent : Agent} (h : p.held = some agent) :
    p.destroy.1.destructions = p.destructions + 1 := by
  have signals := (signals_grows agent.slot (agent.destroy p.asked).signals
    { p.note [.destroyed] with held := none }).destructions_eq rfl
  rw [destroy_eq h, signals]
  exact List.countP_append

theorem destroy_grows (p : Player) : Grows Event.isOfShutdown p p.destroy.1 := by
  cases h : p.held with
  | none =>
    rw [destroy_of_held_eq_none h]
    exact .refl p
  | some agent =>
    have told : Grows Event.isOfShutdown p { p.note [.destroyed] with held := none } :=
      note_grows (by simp [Event.isOfShutdown]) p
    rw [destroy_eq h]
    exact told.trans ((signals_grows _ _ _).mono Event.isOfShutdown_of_isSignal)

end Player

end Runbook
