/-
Steps that come to the same.

Two outcomes are alike if they carry the same warnings and are the same error, or values that are
related; two steps, if they differ at most in the parameters of a call, and these are related. What
becomes of parameters in another order is up to the functions of the action that is called
(`Action.Keeps`). If it applies none but the one that writes scalars out, they differ in the order
of their own entries (`keeps_reordered`); if none of its functions minds the order, in that of
entries at any depth (`keeps_rearranged`).
-/
import Runbook.Proofs.Schema.Rearrange
import Runbook.Proofs.Step.Rules

namespace Runbook

/-- The same warnings, and outcomes that agree. -/
structure Checked.Alike {α β : Type} (R : α → β → Prop) (x : Checked α) (y : Checked β) : Prop where
  warnings : x.run.warnings = y.run.warnings
  agree : Agree R x.run.value y.run.value

namespace Checked.Alike

variable {α β γ δ : Type} {R : α → β → Prop} {S : γ → δ → Prop}

theorem pure {a : α} {b : β} (h : R a b) : Alike R (Pure.pure a) (Pure.pure b) := ⟨rfl, .ok h⟩

theorem error (e : Error) : Alike R (throw e) (throw e) := ⟨rfl, .error e⟩

theorem bind {x : Checked α} {y : Checked β} {f : α → Checked γ} {g : β → Checked δ}
    (h : Alike R x y) (hf : ∀ a b, R a b → Alike S (f a) (g b)) : Alike S (x >>= f) (y >>= g) := by
  obtain ⟨hwarnings, hagree⟩ := h
  obtain ⟨ws, v⟩ := x
  obtain ⟨ws', w⟩ := y
  obtain rfl : ws = ws' := hwarnings
  change Agree R v w at hagree
  cases hagree with
  | error e => exact ⟨rfl, .error e⟩
  | @ok a b hab =>
    obtain ⟨hw, ha⟩ := hf a b hab
    exact ⟨congrArg (ws ++ ·) hw, ha⟩

end Checked.Alike

/-- The same warnings and related values. -/
structure Logged.Alike {α β : Type} (R : α → β → Prop) (x : Logged α) (y : Logged β) : Prop where
  warnings : x.warnings = y.warnings
  value : R x.value y.value

theorem Checked.Alike.of_logged {α β : Type} {R : α → β → Prop} {x : Logged α} {y : Logged β}
    (h : Logged.Alike R x y) : Checked.Alike R (liftM x : Checked α) (liftM y) :=
  ⟨congrArg (· ++ []) h.warnings, .ok h.value⟩

/-- The same command, but for the parameters of a call, which are related. -/
inductive Command.Upto (R : Value → Value → Prop) : Command → Command → Prop
  | refl (c : Command) : Upto R c c
  | call {v w : Value} (action : String) (h : R v w) :
      Upto R (.ask (.call action v)) (.ask (.call action w))

/-- The same form and the same name for the result, and the same command but for the parameters of
a call, which are related. -/
structure Step.Upto (R : Value → Value → Prop) (s s' : Step) : Prop where
  rule : s.rule = s'.rule
  name : s.name = s'.name
  command : s.command.Upto R s'.command

/-! ## Calls -/

/-- Of parameters in another order the action is given what is related, or refuses both alike. -/
def Action.Keeps (R : Value → Value → Prop) (a : Action) : Prop :=
  ∀ param param' : Object, Fields.Reordered param param' →
    Agree R (a.normalize (.obj param)) (a.normalize (.obj param'))

variable {R : Value → Value → Prop} {a : Action}

theorem Action.keeps_of_schema
    (hobj : ∀ fs gs : Object, Fields.Reordered fs gs → R (.obj fs) (.obj gs))
    (hschema : ∀ s, a.schema = some s → ∀ fs gs : Object, Fields.Reordered fs gs →
      Agree R (s.normalize (.obj fs)) (s.normalize (.obj gs))) : a.Keeps R := by
  intro param param' h
  unfold Action.normalize
  cases hs : a.schema with
  | none => exact .ok (hobj _ _ h)
  | some s =>
    have hagree := hschema s hs param param' h
    dsimp only
    generalize s.normalize (.obj param) = x at hagree
    generalize s.normalize (.obj param') = y at hagree
    cases hagree with
    | ok hvw => exact Agree.ok hvw
    | error e => exact Agree.error _

theorem Action.OnlyStringifies.keeps_reordered (h : a.OnlyStringifies) :
    a.Keeps Value.Reordered :=
  keeps_of_schema (fun _ _ => .obj) fun s hs _ _ => Schema.normalize_reordered (h s hs)

theorem Action.IsOrderFree.keeps_rearranged (h : a.IsOrderFree) : a.Keeps Value.Rearranged :=
  keeps_of_schema
    (fun _ _ hreordered => .of_related (.of_reordered Value.Rearranged.refl hreordered))
    fun s hs _ _ => Schema.normalize_rearranged (h s hs)

namespace Step

theorem callOf_alike (ha : a.Keeps R) {param param' : Object}
    (h : Fields.Reordered param param') :
    Checked.Alike (Command.Upto R) (callOf a (.obj param)) (callOf a (.obj param')) := by
  have hnormalize := ha param param' h
  unfold callOf
  generalize a.normalize (.obj param) = x at hnormalize
  generalize a.normalize (.obj param') = y at hnormalize
  cases hnormalize with
  | ok hvw => exact .pure (.call a.name hvw)
  | error e => exact .error _

theorem callKey_alike {registry : Registry} {key : String}
    (hkey : ∀ a, registry.get? key = some a → a.Keeps R) {param param' : Object}
    (h : Fields.Reordered param param') :
    Checked.Alike (Command.Upto R) (callKey registry key param) (callKey registry key param') := by
  unfold callKey Registry.require
  cases hget : registry.get? key with
  | none => exact .error _
  | some a => exact callOf_alike (hkey a hget) h

end Step

/-! ## Targets -/

/-- A locator takes its hints from the options by their keys; the older key of the target counts
only if no prompt is given. -/
theorem Locator.build_congr {given : Option Prompt} {options options' : Object}
    (h : ∀ key ∈ Locator.keys, Fields.get? key options = Fields.get? key options')
    (hlocate : given = none → Fields.get? "locate" options = Fields.get? "locate" options') :
    Locator.build given options = Locator.build given options' := by
  have hprompt := h "prompt" (by decide)
  have hdeep := h "deepThink" (by decide)
  have hcache := h "cacheable" (by decide)
  have hxpath := h "xpath" (by decide)
  cases given with
  | none =>
    simp only [Locator.build, Locator.promptAt?, Locator.flagAt, hlocate rfl, hprompt, hdeep,
      hcache, hxpath]
  | some p =>
    simp only [Locator.build, Locator.promptAt?, Locator.flagAt, Option.some_or, hprompt, hdeep,
      hcache, hxpath]

/-- The locator of a prompt that is given. -/
def Locator.described (p : Prompt) (options : Object) : Locator where
  prompt := p
  deepThink := flagAt "deepThink" false options
  cacheable := flagAt "cacheable" true options
  xpath := (Fields.get? "xpath" options).bind PathHint.ofValue?

theorem Locator.value_build (p : Prompt) (options : Object) :
    (Locator.build (some p) options).value = some (Locator.described p options) := by
  unfold build
  simp only [Option.some_or]
  -- a warning comes first where the prompts conflict
  split
  · split <;> rfl
  · rfl

namespace Step

/-- Where the target is one, it is put under `locate`, whatever was there. -/
theorem withLocator_of_prompt {target : Option Value} {p : Prompt}
    (h : target.bind Prompt.ofValue? = some p) (param options : Object) :
    withLocator param target options = ⟨(Locator.build (some p) options).warnings,
      Fields.insert "locate" (Locator.described p options).toValue param⟩ := by
  unfold withLocator
  simp only [h, bind, Logged.bind, pure, Logged.pure, Locator.value_build, List.append_nil]

/-- Parameters that agree off `locate` are the same but for their order, once the target that both
put there is read with the same hints. -/
theorem withLocator_alike {param param' options options' : Object} {target : Option Value}
    {p : Prompt} (htarget : target.bind Prompt.ofValue? = some p) (hd : Fields.Distinct param)
    (hd' : Fields.Distinct param')
    (hparam : ∀ k, k ≠ "locate" → Fields.get? k param = Fields.get? k param')
    (hoptions : ∀ k ∈ Locator.keys, Fields.get? k options = Fields.get? k options') :
    Logged.Alike Fields.Reordered (withLocator param target options)
      (withLocator param' target options') := by
  have hbuild : Locator.build (some p) options = Locator.build (some p) options' :=
    Locator.build_congr hoptions (absurd · (Option.some_ne_none p))
  have hlocators : Locator.described p options = Locator.described p options' := by
    have hsame := congrArg Logged.value hbuild
    simpa only [Locator.value_build, Option.some.injEq] using hsame
  rw [withLocator_of_prompt htarget, withLocator_of_prompt htarget, hbuild, hlocators]
  refine ⟨rfl, .of_get? (Fields.distinct_insert hd) (Fields.distinct_insert hd') fun k => ?_⟩
  rw [Fields.get?_insert, Fields.get?_insert]
  split
  · rfl
  · next hk => exact hparam k fun h => hk h.symm

end Step

/-! ## Items -/

namespace Step

variable {registry : Registry} {item item' : Item}

/-- Two items come to the same, where some actions are concerned: up to the order of the entries of
the parameters, if these actions apply no function but the one that writes scalars out, and up to
that of entries at any depth, if none of their functions minds it. -/
structure Concord (registry : Registry) (concerned : Action → Prop) (item item' : Item) :
    Prop where
  reordered : (∀ a, concerned a → a.OnlyStringifies) →
    Checked.Alike (Step.Upto Value.Reordered) (resolve registry item) (resolve registry item')
  rearranged : (∀ a, concerned a → a.IsOrderFree) →
    Checked.Alike (Step.Upto Value.Rearranged) (resolve registry item) (resolve registry item')

theorem Concord.of_keeps {concerned : Action → Prop}
    (h : ∀ R : Value → Value → Prop, (∀ a, concerned a → a.Keeps R) →
      Checked.Alike (Step.Upto R) (resolve registry item) (resolve registry item')) :
    Concord registry concerned item item' where
  reordered hactions := h _ fun a ha => (hactions a ha).keeps_reordered
  rearranged hactions := h _ fun a ha => (hactions a ha).keeps_rearranged

/-- The call of the action with a key, once its parameters are known. -/
def keyedCall (registry : Registry) (key : String) (param : Logged Object) : Checked Command := do
  callKey registry key (← param)

/-- Such a call as a step. -/
def keyedStep (registry : Registry) (rule : Rule) (key : String) (name : Option String)
    (param : Logged Object) : Checked Step := do
  let command ← keyedCall registry key param
  pure ⟨rule, name, command⟩

/-- Two items of a form call the action with a key, under one name for the result and with the same
parameters but for their order. So they come to the same if the action does not mind it. -/
structure SameCall (registry : Registry) (rule : Rule) (key : String) (item item' : Item) : Prop
    extends Concord registry (fun a => registry.get? key = some a) item item' where
  call : ∃ name param param', Logged.Alike Fields.Reordered param param' ∧
    resolve registry item = keyedStep registry rule key name param ∧
    resolve registry item' = keyedStep registry rule key name param'

variable {rule : Rule} {key : String} {name : Option String} {param param' : Logged Object}

theorem keyedStep_alike {R : Value → Value → Prop} (h : Logged.Alike Fields.Reordered param param')
    (hkey : ∀ a, registry.get? key = some a → a.Keeps R) :
    Checked.Alike (Step.Upto R) (keyedStep registry rule key name param)
      (keyedStep registry rule key name param') := by
  have hcall : Checked.Alike (Command.Upto R) (keyedCall registry key param)
      (keyedCall registry key param') :=
    .bind (.of_logged h) fun _ _ hparam => callKey_alike hkey hparam
  exact hcall.bind fun _ _ hcommand => .pure ⟨rfl, rfl, hcommand⟩

theorem SameCall.of_resolve (h : Logged.Alike Fields.Reordered param param')
    (hitem : resolve registry item = keyedStep registry rule key name param)
    (hitem' : resolve registry item' = keyedStep registry rule key name param') :
    SameCall registry rule key item item' where
  toConcord := .of_keeps fun R hkey => by
    rw [hitem, hitem']
    exact keyedStep_alike h hkey
  call := ⟨name, param, param', h, hitem, hitem'⟩

end Step

end Runbook
