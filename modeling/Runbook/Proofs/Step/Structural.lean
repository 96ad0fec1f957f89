/-
What can go wrong while an item is worked out.

Nothing is asked of the agent meanwhile, so every error has to be one that the script and the
actions alone decide: a structural one. `Structural` says that of a computation and is closed
under the ways computations are put together; each form of a step has it, and so does resolution
(`resolve_structural`).
-/
import Runbook.Step

namespace Runbook

namespace Checked

/-- Whatever error comes of it is structural. -/
def Structural {α : Type} (x : Checked α) : Prop :=
  ∀ e, x.run.value = .error e → e.isStructural = true

namespace Structural

variable {α β : Type}

theorem pure (a : α) : Structural (Pure.pure a : Checked α) := by
  intro e h
  cases h

theorem throw {e : Error} (h : e.isStructural = true) :
    Structural (MonadExcept.throw e : Checked α) := by
  intro e' h'
  cases h'
  exact h

theorem lift (x : Logged α) : Structural (liftM x : Checked α) := by
  intro e h
  cases h

theorem bind {x : Checked α} {f : α → Checked β} (hx : x.Structural)
    (hf : ∀ a, (f a).Structural) : Structural (x >>= f) := by
  obtain ⟨ws, v⟩ := x
  intro e h
  cases v with
  | error e' =>
    cases h
    exact hx e rfl
  | ok a => exact hf a e h

end Structural

end Checked

open Checked (Structural)

/-- A lookup of an action fails with a structural error. -/
theorem Registry.require_structural (registry : Registry) (key : String) :
    Structural (Checked.ofExcept (registry.require key)) := by
  unfold Registry.require
  cases registry.get? key with
  | some a => exact .pure a
  | none => exact .throw rfl

theorem Item.promptAt_structural (item : Item) (key : String) :
    Structural (Item.promptAt item key) := by
  unfold Item.promptAt
  split
  · exact .pure _
  · exact .throw rfl

namespace Step

variable (registry : Registry) (item : Item)

/-! ## Calls -/

theorem callOf_structural (a : Action) (param : Value) : Structural (callOf a param) := by
  unfold callOf
  split
  · exact .pure _
  · exact .throw rfl

theorem callKey_structural (key : String) (param : Object) :
    Structural (callKey registry key param) :=
  .bind (registry.require_structural key) fun a => callOf_structural a _

/-! ## The forms -/

theorem buildAct_structural : Structural (buildAct item) := by
  unfold buildAct
  split
  · exact .pure _
  · exact .throw rfl

theorem buildAssertion_structural : Structural (buildAssertion item) :=
  .bind (Item.promptAt_structural item "aiAssert") fun _ => .pure _

theorem buildExtract_structural : Structural (buildExtract item) := by
  unfold buildExtract
  split
  · exact .throw rfl
  · dsimp only
    split
    · exact .pure _
    · exact .throw rfl

theorem buildWaitFor_structural : Structural (buildWaitFor item) := by
  refine .bind (Item.promptAt_structural item "aiWaitFor") fun prompt => ?_
  dsimp only
  split <;> exact .pure _

theorem buildSleep_structural : Structural (buildSleep item) := by
  unfold buildSleep
  dsimp only
  split
  · split
    · exact .pure _
    · exact .throw rfl
  · exact .throw rfl

theorem buildJavascript_structural : Structural (buildJavascript item) := by
  unfold buildJavascript
  split
  · exact .pure _
  · exact .throw rfl

theorem buildInput_structural : Structural (buildInput registry item) :=
  .bind (.lift _) fun param => callKey_structural registry "Input" param

theorem buildKeyboardPress_structural : Structural (buildKeyboardPress registry item) :=
  .bind (.lift _) fun param => callKey_structural registry "KeyboardPress" param

theorem buildScroll_structural : Structural (buildScroll registry item) :=
  .bind (.lift _) fun param => callKey_structural registry "Scroll" param

theorem buildCall_structural (a : Action) (key : String) : Structural (buildCall a key item) := by
  unfold buildCall
  dsimp only
  split
  · exact callOf_structural a _
  · exact .bind (.lift _) fun split => .bind (.lift _) fun param => callOf_structural a _

theorem buildAction_structural : Structural (buildAction registry item) := by
  unfold buildAction
  split
  · exact .throw rfl
  · exact buildCall_structural item _ _
  · exact .throw rfl

theorem build_structural (rule : Rule) : Structural (build registry item rule) := by
  cases rule with
  | act => exact buildAct_structural item
  | assertion => exact buildAssertion_structural item
  | extract => exact buildExtract_structural item
  | waitFor => exact buildWaitFor_structural item
  | sleep => exact buildSleep_structural item
  | javascript => exact buildJavascript_structural item
  | report => exact .pure _
  | input => exact buildInput_structural registry item
  | keyboardPress => exact buildKeyboardPress_structural registry item
  | scroll => exact buildScroll_structural registry item
  | action => exact buildAction_structural registry item

/-- Whatever goes wrong while an item is worked out is decided without the agent. -/
theorem resolve_structural : Structural (resolve registry item) := by
  unfold resolve
  split
  · exact .throw rfl
  · next rule hrule => exact .bind (build_structural registry item rule) fun _ => .pure _

end Step

end Runbook
