/-
The order in which the keys of an item stand.

It matters in one place only: of several keys that ask for data the first is taken. An item with
at most one of them resolves to the same in whatever order its keys stand (`resolve_reordered`):
the same form, the same name and the same command but for the order of its options or parameters,
or the same error but for the item that it shows.
-/
import Runbook.Proofs.Step.Alike

namespace Runbook

open Item

/-! ## What differs in order at most -/

/-- The same command, its options or parameters in another order at most. -/
inductive Command.Permuted : Command → Command → Prop
  | refl (c : Command) : Permuted c c
  | act (prompt : String) {options options' : Object} (h : Fields.Reordered options options') :
      Permuted (.ask (.act prompt options)) (.ask (.act prompt options'))
  | assertion (prompt : Prompt) (message : Option String) {options options' : Object}
      (h : Fields.Reordered options options') :
      Permuted (.ask (.assertion prompt message options))
        (.ask (.assertion prompt message options'))
  | extract (kind : Extraction) (prompt : Value) {options options' : Object}
      (h : Fields.Reordered options options') :
      Permuted (.ask (.extract kind prompt options)) (.ask (.extract kind prompt options'))
  | waitFor (prompt : Prompt) {options options' : Object} (h : Fields.Reordered options options') :
      Permuted (.ask (.waitFor prompt options)) (.ask (.waitFor prompt options'))
  | call (action : String) {v w : Value} (h : v.Reordered w) :
      Permuted (.ask (.call action v)) (.ask (.call action w))

theorem Command.Upto.permuted {c c' : Command} (h : c.Upto Value.Reordered c') : c.Permuted c' := by
  cases h with
  | refl => exact .refl c
  | call action h => exact .call action h

/-- The same form and the same name for the result, and commands that differ in order at most. -/
structure Step.Permuted (s s' : Step) : Prop where
  rule : s.rule = s'.rule
  name : s.name = s'.name
  command : s.command.Permuted s'.command

/-- The same error, or one that shows an item in another order. -/
inductive Error.Permuted : Error → Error → Prop
  | refl (e : Error) : Permuted e e
  | unknownItem {item item' : Item} (h : Fields.Reordered item item') :
      Permuted (.unknownItem item) (.unknownItem item')
  | ambiguousItem (actions : List String) {item item' : Item} (h : Fields.Reordered item item') :
      Permuted (.ambiguousItem actions item) (.ambiguousItem actions item')

namespace Checked

variable {α β γ δ : Type} {R : α → β → Prop} {S : γ → δ → Prop} {x : Checked α} {y : Checked β}

/-- The same warnings, and related values or errors that show the item in another order at most. -/
structure Concurs (R : α → β → Prop) (x : Checked α) (y : Checked β) : Prop where
  warnings : x.run.warnings = y.run.warnings
  values : (∃ a b, x.run.value = .ok a ∧ y.run.value = .ok b ∧ R a b) ∨
    ∃ e e', x.run.value = .error e ∧ y.run.value = .error e' ∧ e.Permuted e'

namespace Concurs

theorem of_alike (h : Alike R x y) : Concurs R x y := by
  obtain ⟨hwarnings, hagree⟩ := h
  refine ⟨hwarnings, ?_⟩
  generalize x.run.value = v at hagree
  generalize y.run.value = w at hagree
  cases hagree with
  | @ok a b hab => exact .inl ⟨a, b, rfl, rfl, hab⟩
  | error e => exact .inr ⟨e, e, rfl, rfl, .refl e⟩

theorem error {e e' : Error} (h : e.Permuted e') :
    Concurs R (throw e : Checked α) (throw e' : Checked β) :=
  ⟨rfl, .inr ⟨e, e', rfl, rfl, h⟩⟩

theorem map {f : α → γ} {g : β → δ} (h : Concurs R x y) (hf : ∀ a b, R a b → S (f a) (g b)) :
    Concurs S (do pure (f (← x))) (do pure (g (← y))) := by
  obtain ⟨hwarnings, hvalues⟩ := h
  obtain ⟨ws, v⟩ := x
  obtain ⟨ws', w⟩ := y
  obtain rfl : ws = ws' := hwarnings
  rcases hvalues with ⟨a, b, hv, hw, hab⟩ | ⟨e, e', hv, hw, he⟩
  · obtain rfl : v = .ok a := hv
    obtain rfl : w = .ok b := hw
    exact ⟨rfl, .inl ⟨f a, g b, rfl, rfl, hf a b hab⟩⟩
  · obtain rfl : v = .error e := hv
    obtain rfl : w = .error e' := hw
    exact ⟨rfl, .inr ⟨e, e', rfl, rfl, he⟩⟩

end Concurs

theorem Alike.refl {R : α → α → Prop} (hR : ∀ a, R a a) (x : Checked α) : Alike R x x := by
  refine ⟨rfl, ?_⟩
  cases x.run.value with
  | ok a => exact .ok (hR a)
  | error e => exact .error e

theorem Alike.after (x : Checked α) {f : α → Checked γ} {g : α → Checked δ}
    (h : ∀ a, Alike S (f a) (g a)) : Alike S (x >>= f) (x >>= g) :=
  Alike.bind (.refl (fun _ => rfl) x) fun a _ heq => heq ▸ h a

theorem Alike.mono {R' : α → β → Prop} (h : Alike R x y) (hR : ∀ a b, R a b → R' a b) :
    Alike R' x y := by
  obtain ⟨hwarnings, hagree⟩ := h
  refine ⟨hwarnings, ?_⟩
  generalize x.run.value = v at hagree ⊢
  generalize y.run.value = w at hagree ⊢
  cases hagree with
  | ok hab => exact .ok (hR _ _ hab)
  | error e => exact .error e

end Checked

namespace Logged.Alike

variable {α β γ δ : Type} {R : α → β → Prop} {S : γ → δ → Prop}

theorem pure {a : α} {b : β} (h : R a b) : Alike R (Pure.pure a) (Pure.pure b) := ⟨rfl, h⟩

/-- What follows the same computation alike is alike with it. -/
theorem after (x : Logged α) {f : α → Logged γ} {g : α → Logged δ}
    (h : ∀ a, Alike S (f a) (g a)) : Alike S (x >>= f) (x >>= g) := by
  obtain ⟨hwarnings, hvalue⟩ := h x.value
  exact ⟨congrArg (x.warnings ++ ·) hwarnings, hvalue⟩

end Logged.Alike

/-! ## What is read off an item -/

variable {registry : Registry} {item item' : Item}

namespace Item

/-- All that an item asks to be read off the screen, in its own order. -/
def extractions (item : Item) : List Extraction := (Fields.keys item).filterMap Extraction.ofKey?

theorem extraction?_eq_head? (item : Item) : extraction? item = (extractions item).head? :=
  (List.head?_filterMap ..).symm

/-- Where at most one key asks for data, its place does not matter. -/
theorem extraction?_reordered (h : Fields.Reordered item item')
    (hone : (extractions item).length ≤ 1) : extraction? item = extraction? item' := by
  have hperm : (extractions item).Perm (extractions item') :=
    (h.perm.map fun e : String × Value => e.1).filterMap _
  rw [extraction?_eq_head?, extraction?_eq_head?]
  cases hlist : extractions item with
  | nil =>
    rw [hlist] at hperm
    rw [hperm.nil_eq]
  | cons e rest =>
    rw [hlist] at hone hperm
    obtain rfl : rest = [] := List.eq_nil_of_length_eq_zero (by simpa using hone)
    rw [List.singleton_perm.mp hperm]

/-- Of two such keys the first is taken. -/
example : extraction? [("aiQuery", .str "rows"), ("aiNumber", .str "count")] = some .query ∧
    extraction? [("aiNumber", .str "count"), ("aiQuery", .str "rows")] = some .number := by decide

theorem textAt?_reordered (h : Fields.Reordered item item') : textAt? item = textAt? item' := by
  funext key
  simp only [textAt?, h.get?_eq]

theorem promptAt_reordered (h : Fields.Reordered item item') (key : String) :
    promptAt item key = promptAt item' key := by
  simp only [promptAt, Locator.promptAt?, h.get?_eq]

theorem resultName?_reordered (h : Fields.Reordered item item') :
    resultName? item = resultName? item' := by
  simp only [resultName?, h.get?_eq]

theorem options_reordered (h : Fields.Reordered item item') (keys : List String) :
    Fields.Reordered (options item keys) (options item' keys) := h.without _

end Item

theorem Registry.matching_reordered (registry : Registry) (h : Fields.Reordered item item') :
    registry.matching item = registry.matching item' := by
  simp only [Registry.matching, h.contains_eq]

theorem Registry.mem_actions_of_matching {registry : Registry} {a : Action} {key : String}
    (h : (a, key) ∈ registry.matching item) : a ∈ registry.actions := by
  obtain ⟨b, hb, hfound⟩ := List.mem_filterMap.mp h
  obtain ⟨k, -, heq⟩ := Option.map_eq_some_iff.mp hfound
  obtain ⟨rfl, rfl⟩ := Prod.mk.inj heq
  exact hb

theorem Step.ruleOf?_reordered (registry : Registry) (h : Fields.Reordered item item') :
    ruleOf? registry item = ruleOf? registry item' := by
  have happlies : Rule.applies registry item = Rule.applies registry item' := by
    funext rule
    by_cases hrule : rule = .action
    · rw [hrule, Rule.applies, Rule.applies, registry.matching_reordered h]
    · rw [rule.applies_eq_hasAny hrule, rule.applies_eq_hasAny hrule]
      exact hasAny_congr fun key _ => h.get?_eq key
  rw [ruleOf?, ruleOf?, happlies]

theorem Locator.build_reordered {options options' : Object} (h : Fields.Reordered options options')
    (given : Option Prompt) : Locator.build given options = Locator.build given options' :=
  Locator.build_congr (fun key _ => h.get?_eq key) fun _ => h.get?_eq "locate"

/-! ## Commands -/

namespace Step

open Checked (Alike Concurs)

variable (registry : Registry)

theorem buildAct_reordered (h : Fields.Reordered item item') :
    Alike Command.Permuted (buildAct item) (buildAct item') := by
  unfold buildAct
  rw [textAt?_reordered h]
  cases actKeys.findSome? (textAt? item') with
  | none => exact .error _
  | some prompt => exact .pure (.act prompt (options_reordered h actKeys))

theorem buildAssertion_reordered (h : Fields.Reordered item item') :
    Alike Command.Permuted (buildAssertion item) (buildAssertion item') := by
  unfold buildAssertion
  rw [promptAt_reordered h, h.get?_eq]
  refine .after _ fun prompt => ?_
  exact .pure (.assertion prompt _ (options_reordered h _))

theorem buildExtract_reordered (h : Fields.Reordered item item')
    (hone : (extractions item).length ≤ 1) (hsome : (extraction? item).isSome = true) :
    Alike Command.Permuted (buildExtract item) (buildExtract item') := by
  unfold buildExtract
  rw [← extraction?_reordered h hone]
  cases hkind : extraction? item with
  | none => rw [hkind] at hsome; cases hsome
  | some kind =>
    dsimp only
    rw [h.get?_eq]
    split
    · exact .pure (.extract kind _ (options_reordered h _))
    · exact .error _

theorem buildWaitFor_reordered (h : Fields.Reordered item item') :
    Alike Command.Permuted (buildWaitFor item) (buildWaitFor item') := by
  unfold buildWaitFor
  rw [promptAt_reordered h, h.get?_eq]
  refine .after _ fun prompt => ?_
  have hothers := options_reordered h ["aiWaitFor"]
  dsimp only
  split
  · exact .pure (.waitFor prompt hothers)
  · exact .pure (.waitFor prompt hothers)
  · exact .pure (.waitFor prompt (hothers.insert _ _))

theorem buildSleep_reordered (h : Fields.Reordered item item') :
    Alike Command.Permuted (buildSleep item) (buildSleep item') := by
  have heq : buildSleep item = buildSleep item' := by simp only [buildSleep, h.get?_eq]
  rw [heq]
  exact .refl .refl _

theorem buildJavascript_reordered (h : Fields.Reordered item item') :
    Alike Command.Permuted (buildJavascript item) (buildJavascript item') := by
  have heq : buildJavascript item = buildJavascript item' := by
    simp only [buildJavascript, textAt?_reordered h]
  rw [heq]
  exact .refl .refl _

theorem buildReport_reordered (h : Fields.Reordered item item') :
    Alike Command.Permuted (buildReport item) (buildReport item') := by
  have heq : buildReport item = buildReport item' := by simp only [buildReport, h.get?_eq]
  rw [heq]
  exact .refl .refl _

/-! ## Calls -/

variable {param param' options options' : Object}

theorem withLocator_reordered (hparam : Fields.Reordered param param')
    (hoptions : Fields.Reordered options options') (target : Option Value) :
    Logged.Alike Fields.Reordered (withLocator param target options)
      (withLocator param' target options') := by
  unfold withLocator
  cases target.bind Prompt.ofValue? with
  | none => exact .pure hparam
  | some p =>
    dsimp only
    rw [Locator.build_reordered hoptions]
    refine .after _ fun locator => ?_
    cases locator with
    | none => exact .pure hparam
    | some l => exact .pure (hparam.insert _ _)

variable {registry} (hregistry : registry.OnlyStringifies)

include hregistry

/-- The call of parameters in another order, with the same target. -/
theorem callKey_reordered (key : String) (hparam : Fields.Reordered param param')
    (hoptions : Fields.Reordered options options') (target : Option Value) :
    Alike Command.Permuted (do callKey registry key (← withLocator param target options))
      (do callKey registry key (← withLocator param' target options')) := by
  have hkey (a : Action) (ha : registry.get? key = some a) : a.Keeps Value.Reordered :=
    (hregistry a (List.mem_of_find?_eq_some ha)).keeps_reordered
  refine Alike.bind (.of_logged (withLocator_reordered hparam hoptions target)) ?_
  intro _ _ h
  exact (callKey_alike hkey h).mono fun _ _ => Command.Upto.permuted

theorem buildInput_reordered (h : Fields.Reordered item item') :
    Alike Command.Permuted (buildInput registry item) (buildInput registry item') := by
  have hrest := options_reordered h ["aiInput", "value"]
  unfold buildInput
  simp only [h.get?_eq, hrest.get?_eq]
  refine callKey_reordered hregistry "Input" ?_ hrest _
  generalize Prod.snd _ = content
  split
  · exact hrest
  · exact hrest
  · exact hrest.insert _ _

theorem buildKeyboardPress_reordered (h : Fields.Reordered item item') :
    Alike Command.Permuted (buildKeyboardPress registry item)
      (buildKeyboardPress registry item') := by
  have hrest := options_reordered h ["aiKeyboardPress"]
  unfold buildKeyboardPress
  simp only [h.get?_eq, hrest.get?_eq]
  refine callKey_reordered hregistry "KeyboardPress" ?_ hrest _
  generalize Prod.snd _ = key
  split
  · split
    · exact hrest.insert _ _
    · exact hrest
  · exact hrest

theorem buildScroll_reordered (h : Fields.Reordered item item') :
    Alike Command.Permuted (buildScroll registry item) (buildScroll registry item') := by
  have hrest := options_reordered h ["aiScroll"]
  unfold buildScroll
  simp only [h.get?_eq, hrest.get?_eq]
  exact callKey_reordered hregistry "Scroll" hrest hrest _

/-! ## Any other action -/

omit hregistry

theorem canonicalTargets_reordered (names : List String) (h : Fields.Reordered param param') :
    Logged.Alike Fields.Reordered (canonicalTargets names param)
      (canonicalTargets names param') := by
  induction names generalizing param param' with
  | nil => exact .pure h
  | cons name rest ih =>
    unfold canonicalTargets
    rw [h.get?_eq]
    cases Fields.get? name param' with
    | none => exact ih h
    | some target =>
      refine .after _ fun full => ?_
      cases full with
      | none => exact ih h
      | some full => exact ih (h.insert _ _)

/-- The prompt that a value under the key of an action is taken for. -/
def ownPrompt : Value → Option Prompt
  | .obj _ => none
  | v => Prompt.ofValue? v

/-- All that an item gives to its action, by the value under the key of the action. -/
def ownOptions (own : Value) (item : Item) : Object :=
  let merged := match own with
    | .obj fs => Fields.merge item fs
    | _ => item
  match ownPrompt own with
  | some p => Fields.insert "prompt" p.toValue merged
  | none => merged

/-- The keys that are no option of an action: its own, and the one of the result. -/
def ownKeys (a : Action) : List String := [a.name, resultKey] ++ a.interfaceAlias.toList

/-- The call of an action that is given some options and maybe a prompt. -/
def callWith (a : Action) (prompt : Option Prompt) (options : Object) : Checked Command := do
  let split ← Locator.split prompt options (ownKeys a)
  let names := match a.schema with
    | some s => s.locatorNames.filter (· != "locate")
    | none => []
  let param ← canonicalTargets names split.rest
  let param := match split.locator with
    | some l => Fields.insert "locate" l.toValue param
    | none => param
  callOf a (.obj param)

/-- The call of an action by an item that has a value under a key of it. -/
def ownCall (a : Action) (own : Value) (item : Item) : Checked Command :=
  match own, a.acceptsBareString with
  | .str s, true => callOf a (.str s)
  | own, _ => callWith a (ownPrompt own) (ownOptions own item)

theorem buildCall_eq (a : Action) (key : String) (item : Item) :
    buildCall a key item = ownCall a (Value.ofOption (Fields.get? key item)) item := by
  unfold buildCall ownCall
  generalize Value.ofOption (Fields.get? key item) = own
  cases own <;> cases a.acceptsBareString <;> rfl

theorem ownCall_of_not_bare {a : Action} (hbare : a.acceptsBareString = false) (own : Value)
    (item : Item) : ownCall a own item = callWith a (ownPrompt own) (ownOptions own item) := by
  unfold ownCall
  rw [hbare]
  cases own <;> rfl

/-- A step for an action that no text calls is the call with all that the item gives to it. -/
theorem build_of_matching {a : Action} {key : String} {own : Value}
    (hmatching : registry.matching item = [(a, key)]) (hbare : a.acceptsBareString = false)
    (hown : Fields.get? key item = some own) :
    build registry item .action = callWith a (ownPrompt own) (ownOptions own item) := by
  show buildAction registry item = _
  simp only [buildAction, hmatching]
  rw [buildCall_eq, hown, Value.ofOption, ownCall_of_not_bare hbare]

theorem ownOptions_reordered (own : Value) (h : Fields.Reordered item item') :
    Fields.Reordered (ownOptions own item) (ownOptions own item') := by
  unfold ownOptions
  dsimp only
  split
  · split
    · exact (h.merge _).insert _ _
    · exact h.insert _ _
  · split
    · exact h.merge _
    · exact h

/-- Calls with the same target whose other options differ in order at most. -/
theorem callWith_alike {R : Value → Value → Prop} {a : Action} (ha : a.Keeps R)
    {prompt prompt' : Option Prompt}
    (hlocator : Locator.build prompt options = Locator.build prompt' options')
    (hrest : ∀ used, Fields.Reordered (Fields.without ("locate" :: used ++ ownKeys a) options)
      (Fields.without ("locate" :: used ++ ownKeys a) options')) :
    Alike (Command.Upto R) (callWith a prompt options) (callWith a prompt' options') := by
  unfold callWith Locator.split
  rw [hlocator]
  refine Alike.bind (R := fun s s' => s.locator = s'.locator ∧ Fields.Reordered s.rest s'.rest)
    (.of_logged (.after _ fun locator => .pure ⟨rfl, hrest _⟩)) ?_
  rintro s s' ⟨hsame, hreordered⟩
  refine Alike.bind (.of_logged (canonicalTargets_reordered _ hreordered)) ?_
  intro param param' hparam
  rw [hsame]
  cases s'.locator with
  | none => exact callOf_alike ha hparam
  | some l => exact callOf_alike ha (hparam.insert _ _)

theorem buildCall_reordered {a : Action} (ha : a.OnlyStringifies) (key : String)
    (h : Fields.Reordered item item') :
    Alike Command.Permuted (buildCall a key item) (buildCall a key item') := by
  rw [buildCall_eq, buildCall_eq, h.get?_eq]
  generalize Value.ofOption (Fields.get? key item') = own
  have hoptions := ownOptions_reordered own h
  unfold ownCall
  split
  · exact .refl .refl _
  · refine (callWith_alike ha.keeps_reordered (Locator.build_reordered hoptions _) ?_).mono
      fun _ _ => Command.Upto.permuted
    exact fun _ => hoptions.without _

include hregistry

/-- The call of an action, or the error that shows the item for want of one action. -/
theorem buildAction_reordered (h : Fields.Reordered item item') :
    Concurs Command.Permuted (buildAction registry item) (buildAction registry item') := by
  unfold buildAction
  rw [← registry.matching_reordered h]
  split
  · exact .error (.unknownItem h)
  · next a key hmatching =>
    have ha : a ∈ registry.actions :=
      Registry.mem_actions_of_matching (hmatching ▸ List.mem_singleton_self _)
    exact .of_alike (buildCall_reordered (hregistry a ha) _ h)
  · exact .error (.ambiguousItem _ h)

/-! ## Steps -/

/-- A command in another order for an item in another order, whatever the form. -/
theorem build_reordered (rule : Rule) (h : Fields.Reordered item item')
    (hone : (extractions item).length ≤ 1) (happlies : rule.applies registry item = true) :
    Concurs Command.Permuted (build registry item rule) (build registry item' rule) := by
  cases rule with
  | act => exact .of_alike (buildAct_reordered h)
  | assertion => exact .of_alike (buildAssertion_reordered h)
  | extract => exact .of_alike (buildExtract_reordered h hone happlies)
  | waitFor => exact .of_alike (buildWaitFor_reordered h)
  | sleep => exact .of_alike (buildSleep_reordered h)
  | javascript => exact .of_alike (buildJavascript_reordered h)
  | report => exact .of_alike (buildReport_reordered h)
  | input => exact .of_alike (buildInput_reordered hregistry h)
  | keyboardPress => exact .of_alike (buildKeyboardPress_reordered hregistry h)
  | scroll => exact .of_alike (buildScroll_reordered hregistry h)
  | action => exact buildAction_reordered hregistry h

/-- **The order of an item's keys does not matter** where at most one of them asks for data, and the
actions apply no function but the one that writes scalars out. In whatever order the keys stand, the
item has the same form and the same name, and its command is the same but for the order of options
or parameters; or it fails with the same error, but for the item that the error shows. -/
theorem resolve_reordered (h : Fields.Reordered item item')
    (hone : (extractions item).length ≤ 1) :
    Concurs Step.Permuted (resolve registry item) (resolve registry item') := by
  unfold resolve
  rw [← ruleOf?_reordered registry h]
  cases hrule : ruleOf? registry item with
  | none => exact .error (.unknownItem h)
  | some rule =>
    have happlies : rule.applies registry item = true := List.find?_some hrule
    refine (build_reordered hregistry rule h hone happlies).map fun _ _ hcommand => ?_
    exact ⟨rfl, resultName?_reordered h, hcommand⟩

omit hregistry

/-- One action, that needs a target. -/
def tapping : Registry where
  actions := [.standard .tap]
  separate := by decide

theorem onlyStringifies_tapping : tapping.OnlyStringifies := by
  intro a ha
  obtain rfl := List.mem_singleton.mp ha
  exact Action.onlyStringifies_standard .tap

/-- A tap whose hint stands before or after it. -/
theorem resolve_reordered_tap :
    let item : Item := [("aiTap", .str "button"), ("deepThink", .bool true)]
    let item' : Item := [("deepThink", .bool true), ("aiTap", .str "button")]
    tapping.OnlyStringifies ∧ Fields.Reordered item item' ∧ (extractions item).length ≤ 1 ∧
      Concurs Step.Permuted (resolve tapping item) (resolve tapping item') ∧
      ∃ s, (resolve tapping item).run.value = .ok s := by
  intro item item'
  have h : Fields.Reordered item item' := ⟨by decide, .swap _ _ _⟩
  have hone : (extractions item).length ≤ 1 := by decide
  exact ⟨onlyStringifies_tapping, h, hone, resolve_reordered onlyStringifies_tapping h hone, _, rfl⟩

end Step

end Runbook
