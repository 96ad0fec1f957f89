/-
Where a call goes.

A step finds the action of its call in the registry, which goes by names and aliases, and checks
the parameters with it. The agent is told no more than a name and looks for it in a list of its
own, where aliases do not count. If the list is the one the registry is made from, both come to
the same action (`calls_arrive`): no key belongs to two actions, so whoever finds an owner of the
name has found the action that was meant.

What a step may call is collected along the way for any property of calls (`build_calls`). Four
forms of a step end in a call, and all of them by way of `callOf`.
-/
import Runbook.Agent.Dispatch
import Runbook.Proofs.Action.Registry
import Runbook.Step

namespace Runbook

open Item

/-- An agent with the actions of a registry finds each of them by its name. -/
theorem Agent.actionNamed?_eq {registry : Registry} {a : Action} (ha : a ∈ registry.actions) :
    actionNamed? registry.actions a.name = some a := by
  refine Registry.find?_owner a.name ha (beq_self_eq_true a.name) fun b hb => ?_
  rw [← beq_iff_eq.mp hb]
  exact b.name_mem_keys

/-- A call by name ends as the call of the action with that name. -/
theorem Agent.callByName_outcome {actions : List Action} {name : String} {a : Action}
    (h : actionNamed? actions name = some a) (screen : Option Screen)
    (device : Action → Value → Reply Value) (param : Value) :
    (callByName actions screen (fun b handed => device b handed.toValue) name param).outcome =
      a.call (fun v => (device a v).outcome) screen param := by
  cases hhand : a.hand param with
  | error e =>
    simp only [callByName, hand, h, Action.call, hhand]
    rfl
  | ok handed => simp only [callByName, hand, h, Action.call, hhand]

/-! ## What a computation returns -/

namespace Checked

variable {α β : Type} {P : α → Prop} {Q : β → Prop}

/-- What is returned, if anything is, has a property. -/
def Returns (P : α → Prop) (x : Checked α) : Prop := ∀ a, x.run.value = .ok a → P a

namespace Returns

theorem pure {a : α} (h : P a) : Returns P (Pure.pure a : Checked α) := by
  intro b hb
  cases hb
  exact h

theorem throw (e : Error) : Returns P (MonadExcept.throw e : Checked α) := by
  intro a h
  cases h

theorem bind {x : Checked α} {f : α → Checked β} (hx : x.Returns P)
    (hf : ∀ a, P a → (f a).Returns Q) : Returns Q (x >>= f) := by
  obtain ⟨ws, v⟩ := x
  intro b h
  cases v with
  | error e => cases h
  | ok a => exact hf a (hx a rfl) b h

/-- What is returned whatever comes first. -/
theorem after (x : Checked α) {f : α → Checked β} (hf : ∀ a, (f a).Returns Q) :
    Returns Q (x >>= f) :=
  bind (fun _ _ => trivial) fun a (_ : True) => hf a

theorem lift_bind {x : Logged α} {f : α → Checked β} (hf : (f x.value).Returns Q) :
    Returns Q ((liftM x : Checked α) >>= f) := fun b h => hf b h

end Returns

end Checked

open Checked (Returns)

/-! ## What a step may call -/

/-- If the command is a call, it has a property. -/
def Command.Calls (P : String → Value → Prop) (c : Command) : Prop :=
  ∀ action param, c = .ask (.call action param) → P action param

/-- A call of the action: under its name, with parameters that have come out of its check. -/
def Action.Called (a : Action) (action : String) (param : Value) : Prop :=
  action = a.name ∧ ∃ given, a.normalize given = .ok param

/-- The key under which a form of its own looks for its action. -/
def Rule.calleeKey? : Rule → Option String
  | .input => some "Input"
  | .keyboardPress => some "KeyboardPress"
  | .scroll => some "Scroll"
  | _ => none

/-- The action that an item calls if it has the form. -/
def Rule.callee? (registry : Registry) (item : Item) : Rule → Option Action
  | .action =>
    match registry.matching item with
    | [(a, _)] => some a
    | _ => none
  | rule => rule.calleeKey?.bind registry.get?

theorem Rule.mem_of_callee? {registry : Registry} {item : Item} {rule : Rule} {a : Action}
    (h : rule.callee? registry item = some a) : a ∈ registry.actions := by
  have hkey : rule.calleeKey?.bind registry.get? = some a → a ∈ registry.actions := by
    intro hget
    obtain ⟨key, -, hfind⟩ := Option.bind_eq_some_iff.mp hget
    exact List.mem_of_find?_eq_some hfind
  cases rule with
  | action =>
    dsimp only [callee?] at h
    split at h
    · next b key hmatching =>
      cases h
      have hmem : (a, key) ∈ registry.matching item := by rw [hmatching]; simp
      obtain ⟨b, hb, hfound⟩ := List.mem_filterMap.mp hmem
      obtain ⟨k, -, heq⟩ := Option.map_eq_some_iff.mp hfound
      cases heq
      exact hb
    · cases h
  | _ => exact hkey h

namespace Step

variable {registry : Registry} {item : Item} {P : String → Value → Prop}

theorem callOf_calls {a : Action} {given : Value}
    (h : ∀ v, a.normalize given = .ok v → P a.name v) :
    Returns (Command.Calls P) (callOf a given) := by
  unfold callOf
  split
  · next v hv =>
    refine .pure fun action param heq => ?_
    cases heq
    exact h v hv
  · exact .throw _

theorem callKey_calls {key : String} {param : Object}
    (h : ∀ a, registry.get? key = some a → Returns (Command.Calls P) (callOf a (.obj param))) :
    Returns (Command.Calls P) (callKey registry key param) := by
  unfold callKey Registry.require
  cases hget : registry.get? key with
  | none => exact .throw _
  | some a => exact h a hget

/-- What all calls of an item have in common follows for each form from how it calls its action:
the forms that have a key for it, from the check of the parameters; the last form, from all that
it does with the item. -/
theorem build_calls (rule : Rule)
    (hkey : ∀ a, rule.calleeKey?.bind registry.get? = some a → ∀ param : Object,
      Returns (Command.Calls P) (callOf a (.obj param)))
    (haction : rule = .action → ∀ a key, registry.matching item = [(a, key)] →
      Returns (Command.Calls P) (buildCall a key item)) :
    Returns (Command.Calls P) (build registry item rule) := by
  cases rule with
  | act =>
    show Returns _ (buildAct item)
    unfold buildAct
    cases actKeys.findSome? (textAt? item) with
    | none => exact .throw _
    | some prompt => exact .pure nofun
  | assertion => exact .after _ fun _ => .pure nofun
  | extract =>
    show Returns _ (buildExtract item)
    unfold buildExtract
    cases extraction? item with
    | none => exact .throw _
    | some e =>
      dsimp only
      by_cases hsaid : isSaid (Fields.get? e.key item) = true
      · rw [if_pos hsaid]
        exact .pure nofun
      · rw [if_neg hsaid]
        exact .throw _
  | waitFor =>
    refine .after _ fun prompt => ?_
    cases Fields.get? "timeout" item with
    | none => exact .pure nofun
    | some limit => cases limit <;> exact .pure nofun
  | sleep =>
    show Returns _ (buildSleep item)
    unfold buildSleep
    dsimp only
    cases milliseconds? (Value.ofOption (Fields.get? "sleep" item)) with
    | none => exact .throw _
    | some ms =>
      dsimp only
      by_cases hms : Binary64.zero < ms
      · rw [if_pos hms]
        exact .pure nofun
      · rw [if_neg hms]
        exact .throw _
  | javascript =>
    show Returns _ (buildJavascript item)
    unfold buildJavascript
    cases textAt? item "javascript" with
    | none => exact .throw _
    | some script => exact .pure nofun
  | report => exact .pure nofun
  | input => exact .after _ fun param => callKey_calls fun a ha => hkey a ha param
  | keyboardPress => exact .after _ fun param => callKey_calls fun a ha => hkey a ha param
  | scroll => exact .after _ fun param => callKey_calls fun a ha => hkey a ha param
  | action =>
    show Returns _ (buildAction registry item)
    unfold buildAction
    split
    · exact .throw _
    · next a key hmatching => exact haction rfl a key hmatching
    · exact .throw _

/-- What holds of what every form builds holds of the command of the step. -/
theorem resolve_calls {P : Rule → String → Value → Prop}
    (h : ∀ rule, Returns (Command.Calls (P rule)) (build registry item rule)) :
    Returns (fun s => s.command.Calls (P s.rule)) (resolve registry item) := by
  unfold resolve
  split
  · exact .throw _
  · next rule _ => exact .bind (h rule) fun command hcommand => .pure hcommand

/-! ## What becomes of a call -/

theorem buildCall_calls (a : Action) (key : String) :
    Returns (Command.Calls a.Called) (buildCall a key item) := by
  have hcall : ∀ given, Returns (Command.Calls a.Called) (callOf a given) := fun given =>
    callOf_calls fun v hv => ⟨rfl, given, hv⟩
  unfold buildCall
  dsimp only
  split
  · exact hcall _
  · exact .after _ fun split => .after _ fun param => hcall _

/-- Whatever an item calls is the action of its form. -/
theorem build_callee (rule : Rule) :
    Returns (Command.Calls fun action param =>
      ∃ a, rule.callee? registry item = some a ∧ a.Called action param)
      (build registry item rule) := by
  refine build_calls rule (fun a ha param => callOf_calls fun v hv => ?_) ?_
  · refine ⟨a, ?_, rfl, _, hv⟩
    cases rule with
    | action => cases ha
    | _ => exact ha
  · rintro rfl a key hmatching command hcommand action param heq
    refine ⟨a, ?_, buildCall_calls a key command hcommand action param heq⟩
    simp only [Rule.callee?, hmatching]

/-- **Calls arrive.** Let a registry be made from a list of actions, and let an item resolve with
it to a call. Then an agent with the same list finds the action of the call, and it is the one
that the item's form picks in the registry, by name or by alias: the parameters have passed its
check, no other action of the list has the name as a key, and the call by name ends as the call of
that action does, whatever the device answers. -/
theorem calls_arrive {actions : List Action} {registry : Registry} {item : Item} {s : Step}
    {action : String} {param : Value} (hregistry : Registry.build actions = .ok registry)
    (hstep : (resolve registry item).run.value = .ok s)
    (hcall : s.command = .ask (.call action param)) :
    ∃ a, s.rule.callee? registry item = some a ∧
      (∃ given, a.normalize given = .ok param) ∧
      Agent.actionNamed? actions action = some a ∧
      (∀ b ∈ actions, action ∈ b.keys → b = a) ∧
      ∀ (screen : Option Screen) (device : Action → Value → Reply Value),
        (Agent.callByName actions screen (fun b handed => device b handed.toValue)
          action param).outcome = a.call (fun v => (device a v).outcome) screen param := by
  obtain ⟨a, hcallee, rfl, hgiven⟩ := resolve_calls build_callee s hstep action param hcall
  have ha : a ∈ registry.actions := Rule.mem_of_callee? hcallee
  have hnamed := Agent.actionNamed?_eq ha
  obtain rfl := Registry.actions_build hregistry
  refine ⟨a, hcallee, hgiven, hnamed, fun b hb hkey => ?_, fun screen device => ?_⟩
  · exact Registry.owner_unique hb ha hkey a.name_mem_keys
  · exact Agent.callByName_outcome hnamed screen device param

/-- An action that text entry finds by its alias. -/
def dictating : Action :=
  ⟨"Dictate", some "Input", "say it", some (.object [.plain "value" .string]), .custom⟩

def dictation : Registry where
  actions := [.standard .tap, dictating]
  separate := by decide

/-- Text entry arrives at the action with the alias. -/
theorem calls_arrive_dictated :
    let item : Item := [("aiInput", .str "search box"), ("value", .str "shoes")]
    let shoes : Value := .obj [("value", .str "shoes")]
    Registry.build [.standard .tap, dictating] = .ok dictation ∧
      (resolve dictation item).run.value = .ok ⟨.input, none, .ask (.call "Dictate" shoes)⟩ ∧
      Agent.actionNamed? [.standard .tap, dictating] "Dictate" = some dictating ∧
      ∀ (screen : Option Screen) (device : Action → Value → Reply Value),
        (Agent.callByName [.standard .tap, dictating] screen
          (fun b handed => device b handed.toValue) "Dictate" shoes).outcome =
            dictating.call (fun v => (device dictating v).outcome) screen shoes := by
  intro item shoes
  have hregistry : Registry.build [.standard .tap, dictating] = .ok dictation := rfl
  have hstep : (resolve dictation item).run.value =
      .ok ⟨.input, none, .ask (.call "Dictate" shoes)⟩ := rfl
  obtain ⟨a, hcallee, -, hnamed, -, hends⟩ := calls_arrive hregistry hstep rfl
  cases hcallee
  exact ⟨hregistry, hstep, hnamed, hends⟩

end Step

end Runbook
