/-
Steps with a form of their own for one action.

Text entry, key presses and scrolling find their action by a key that it has. They differ in which
entries of the item they read for themselves, and are alike in all else (`build_form`): the entries
beside these are handed on together with what the form supplies, and if the item says a target,
its locator is put under `locate`. So each of these steps ends as the check of parameters does that
are known entry by entry, and raises no other warning than the locator (`build_form_of_prompt`).
-/
import Runbook.Proofs.Step.Dispatch
import Runbook.Proofs.Step.Generations

namespace Runbook

open Item
open Fields (get? Distinct)

/-- What follows a computation that cannot fail keeps its warnings. -/
theorem Checked.run_lift_bind {α β : Type} (x : Logged α) (f : α → Checked β) :
    ((liftM x : Checked α) >>= f).run =
      ⟨x.warnings ++ (f x.value).run.warnings, (f x.value).run.value⟩ := by
  show (⟨x.warnings ++ [] ++ (f x.value).run.warnings, (f x.value).run.value⟩ :
    Logged (Except Error β)) = _
  rw [List.append_nil]

namespace Rule

/-- The keys of an item that the form does not hand on. -/
def readKeys : Rule → List String
  | .input => ["aiInput", "value"]
  | .keyboardPress => ["aiKeyboardPress"]
  | .scroll => ["aiScroll"]
  | _ => []

/-- The entries beside those. -/
def beside (item : Item) (rule : Rule) : Object := options item rule.readKeys

/-- What an item of the form says its target is. What is said under `locate` comes first, and else
the own key of the form has the target; for a key press only if the key is named elsewhere. -/
def target? (item : Item) (rule : Rule) : Option Value :=
  let locate := get? "locate" item
  if isSaid locate then locate
  else match rule with
    | .input => if isSaid (get? "aiInput" item) then get? "aiInput" item else none
    | .keyboardPress =>
      if isSaid (get? "keyName" item) then get? "aiKeyboardPress" item else none
    | .scroll => get? "aiScroll" item
    | _ => none

/-- The text that is entered, if one is given. -/
def entered : Option Value → Object
  | none | some .null => []
  | some text => [("value", Schema.stringify text)]

/-- The name of the key that is pressed, if one is said. -/
def pressed (key : Option Value) : Object :=
  if isSaid key then key.toList.map ("keyName", ·) else []

/-- What an item of the form supplies to its action besides the target. -/
def supplied (item : Item) (rule : Rule) : Object :=
  let located := isSaid (get? "locate" item)
  match rule with
  | .input =>
    let own := get? "aiInput" item
    entered (if located && isSaid own then own else get? "value" item)
  | .keyboardPress =>
    let own := get? "aiKeyboardPress" item
    let keyName := get? "keyName" item
    pressed (if !located && isSaid keyName then keyName else own)
  | _ => []

/-- The parameters of an item of the form, but for the locator of its target. -/
def given (item : Item) (rule : Rule) : Object :=
  Fields.merge (rule.beside item) (rule.supplied item)

end Rule

namespace Step

variable {registry : Registry} {item : Item} {rule : Rule} {key : String} {p q : Prompt}
  {options param : Object}

/-! ## Checks raise no warning -/

theorem callOf_warnings (a : Action) (v : Value) : (callOf a v).run.warnings = [] := by
  unfold callOf
  cases a.normalize v <;> rfl

theorem callKey_warnings (registry : Registry) (key : String) (param : Object) :
    (callKey registry key param).run.warnings = [] := by
  unfold callKey
  cases registry.require key with
  | error e => rfl
  | ok a => exact callOf_warnings a (.obj param)

theorem callOf_value (a : Action) (v : Value) : (callOf a v).run.value =
    match a.normalize v with
    | .ok w => .ok (.ask (.call a.name w))
    | .error e => .error (.validation e) := by
  unfold callOf
  cases a.normalize v <;> rfl

theorem callKey_value (registry : Registry) (key : String) (param : Object) :
    (callKey registry key param).run.value =
      match registry.get? key with
      | some a => (callOf a (.obj param)).run.value
      | none => .error (.actionNotFound key) := by
  unfold callKey Registry.require
  cases registry.get? key <;> rfl

/-! ## Forms -/

/-- What is beside the own entries of a form, apart from the name of the result. -/
theorem get?_beside {name : String} (hresult : name ≠ resultKey) (hread : name ∉ rule.readKeys) :
    get? name (rule.beside item) = get? name item :=
  get?_options (by simp [hresult, hread])

theorem buildInput_eq : buildInput registry item = (do
    callKey registry "Input" (← withLocator (Rule.input.given item) (Rule.input.target? item)
      (Rule.input.beside item))) := by
  have hlocate : get? "locate" (item.options ["aiInput", "value"]) = get? "locate" item :=
    get?_options (by decide)
  simp only [buildInput, hlocate, Rule.given, Rule.target?, Rule.supplied, Rule.beside,
    Rule.readKeys]
  cases isSaid (get? "locate" item) with
  | true =>
    simp only [if_true, Bool.true_and]
    generalize (if isSaid (get? "aiInput" item) = true then get? "aiInput" item
      else get? "value" item) = content
    cases content with
    | none => rfl
    | some text => cases text <;> rfl
  | false =>
    simp only [Bool.false_eq_true, if_false, Bool.false_and]
    cases get? "value" item with
    | none => rfl
    | some text => cases text <;> rfl

theorem buildKeyboardPress_eq : buildKeyboardPress registry item = (do
    callKey registry "KeyboardPress" (← withLocator (Rule.keyboardPress.given item)
      (Rule.keyboardPress.target? item) (Rule.keyboardPress.beside item))) := by
  have hlocate : get? "locate" (item.options ["aiKeyboardPress"]) = get? "locate" item :=
    get?_options (by decide)
  have hkeyName : get? "keyName" (item.options ["aiKeyboardPress"]) = get? "keyName" item :=
    get?_options (by decide)
  have hgiven : ∀ (v : Value) (fs : Object), Fields.merge fs (Rule.pressed (some v)) =
      if isSaid (some v) then Fields.insert "keyName" v fs else fs := by
    intro v fs
    unfold Rule.pressed
    cases isSaid (some v) <;> rfl
  simp only [buildKeyboardPress, hlocate, hkeyName, Rule.given, Rule.target?, Rule.supplied,
    Rule.beside, Rule.readKeys]
  generalize get? "aiKeyboardPress" item = own
  generalize get? "keyName" item = keyName
  cases isSaid (get? "locate" item) with
  | true =>
    cases own with
    | none => rfl
    | some v => simp [hgiven]
  | false =>
    cases hsaid : isSaid keyName with
    | true =>
      cases keyName with
      | none => rfl
      | some v => simp [hgiven, hsaid]
    | false =>
      cases own with
      | none => rfl
      | some v => simp [hgiven]

theorem buildScroll_eq : buildScroll registry item = (do
    callKey registry "Scroll" (← withLocator (Rule.scroll.given item) (Rule.scroll.target? item)
      (Rule.scroll.beside item))) := by
  have hlocate : get? "locate" (item.options ["aiScroll"]) = get? "locate" item :=
    get?_options (by decide)
  simp only [buildScroll, hlocate]
  rfl

/-- What the forms have in common. -/
theorem build_form (h : rule.calleeKey? = some key) : build registry item rule = (do
    callKey registry key
      (← withLocator (rule.given item) (rule.target? item) (rule.beside item))) := by
  cases rule with
  | input =>
    cases h
    exact buildInput_eq
  | keyboardPress =>
    cases h
    exact buildKeyboardPress_eq
  | scroll =>
    cases h
    exact buildScroll_eq
  | _ => cases h

/-! ## Targets -/

/-- Warnings are raised where a second prompt stands among the options and is another one. -/
def conflicts (p : Prompt) (second : Option Prompt) : List Warning :=
  match second with
  | some q => if p.sameAs q then [] else [.promptConflict]
  | none => []

theorem warnings_build (p : Prompt) (options : Object) : (Locator.build (some p) options).warnings =
    conflicts p (Locator.promptAt? "prompt" options) := by
  unfold Locator.build conflicts
  cases Locator.promptAt? "prompt" options with
  | none => rfl
  | some q =>
    dsimp only
    cases p.sameAs q <;> rfl

/-- With a target, the parameters have its locator. -/
theorem build_form_of_prompt (h : rule.calleeKey? = some key)
    (hp : (rule.target? item).bind Prompt.ofValue? = some p) :
    (build registry item rule).run = ⟨conflicts p (Locator.promptAt? "prompt" item),
      (callKey registry key (Fields.insert "locate"
        (Locator.described p (rule.beside item)).toValue (rule.given item))).run.value⟩ := by
  have hprompt : Locator.promptAt? "prompt" (rule.beside item) =
      Locator.promptAt? "prompt" item := by
    have hread : "prompt" ∉ rule.readKeys := by cases rule <;> decide
    rw [Locator.promptAt?, get?_beside (by decide) hread, Locator.promptAt?]
  rw [build_form h, withLocator_of_prompt hp, warnings_build, hprompt, Checked.run_lift_bind,
    callKey_warnings, List.append_nil]

/-- Without a target, nothing is added to the parameters. -/
theorem build_form_of_none (h : rule.calleeKey? = some key)
    (hp : (rule.target? item).bind Prompt.ofValue? = none) :
    build registry item rule = callKey registry key (rule.given item) := by
  rw [build_form h, withLocator, hp]
  rfl

end Step

end Runbook
