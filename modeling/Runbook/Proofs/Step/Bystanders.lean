/-
Actions that a step has nothing to do with.

A step asks its registry for two things only: which actions it names (`matching`), and, in three
forms of its own, which action has a certain key (`get?`). Neither depends on where an action stands
among the others, and an action with none of the keys in question changes neither. So a step
resolves to the same among the same actions in another order, and among more actions
(`bystanders_ignored`); only an error that lists actions has them in the order of the registry.
-/
import Runbook.Proofs.Step.Classification

namespace Runbook

open Item

/-! ## Registries that answer alike -/

/-- The keys by which steps with a form of their own find their actions. -/
def Rule.calleeKeys : List String := Rule.all.filterMap Rule.calleeKey?

example : Rule.calleeKeys = ["Input", "KeyboardPress", "Scroll"] := rfl

/-- No key of the action is one of the other actions', of the item, or of those by which forms of
steps find their actions. -/
def Action.IsBystander (extra : Action) (actions : List Action) (item : Item) : Prop :=
  ∀ key ∈ extra.keys, (∀ a ∈ actions, key ∉ a.keys) ∧ key ∉ Fields.keys item ∧
    key ∉ Rule.calleeKeys

instance (extra : Action) (actions : List Action) (item : Item) :
    Decidable (extra.IsBystander actions item) :=
  inferInstanceAs (Decidable (∀ key ∈ extra.keys, _ ∧ _ ∧ _))

namespace Registry

variable {registry registry' : Registry} {item : Item} {extra : Action} {before after : List Action}

/-- A key has the same owner wherever the owner stands. -/
theorem get?_permuted (h : registry'.actions.Perm registry.actions) (key : String) :
    registry'.get? key = registry.get? key := by
  apply Option.ext
  intro a
  rw [get?_eq_some_iff, get?_eq_some_iff, h.mem_iff]

theorem matching_permuted (h : registry'.actions.Perm registry.actions) (item : Item) :
    (registry'.matching item).Perm (registry.matching item) := h.filterMap _

theorem named_permuted (h : registry'.actions.Perm registry.actions) (item : Item) :
    (registry'.named item).Perm (registry.named item) := h.filter _

/-- Of at most one action there is only one order. -/
theorem matching_eq_of_few (h : registry'.actions.Perm registry.actions)
    (hfew : (registry.matching item).length ≤ 1) :
    registry'.matching item = registry.matching item := by
  have hperm := matching_permuted h item
  cases hlist : registry.matching item with
  | nil => exact (hlist ▸ hperm).eq_nil
  | cons m rest =>
    rw [hlist] at hfew hperm
    obtain rfl : rest = [] := List.eq_nil_of_length_eq_zero (by simpa using hfew)
    exact List.perm_singleton.mp hperm

theorem get?_inserted (h : registry.actions = before ++ after)
    (h' : registry'.actions = before ++ extra :: after) {key : String} (hkey : key ∉ extra.keys) :
    registry'.get? key = registry.get? key := by
  simp [get?, h, h', List.find?_append, hkey]

theorem matching_inserted (h : registry.actions = before ++ after)
    (h' : registry'.actions = before ++ extra :: after)
    (hkeys : ∀ key ∈ extra.keys, key ∉ Fields.keys item) :
    registry'.matching item = registry.matching item := by
  have hnone : (extra.keys.find? fun key => Fields.contains key item) = none := by
    rw [List.find?_eq_none]
    exact fun key hkey hcontains => hkeys key hkey (Fields.contains_iff_mem_keys.mp hcontains)
  simp [matching, h, h', List.filterMap_append, hnone]

end Registry

namespace Step

variable {registry registry' : Registry} {item : Item}

theorem ruleOf?_congr
    (hmatching : (registry'.matching item).isEmpty = (registry.matching item).isEmpty) :
    ruleOf? registry' item = ruleOf? registry item := by
  have happlies : Rule.applies registry' item = Rule.applies registry item := by
    funext rule
    cases rule with
    | action => rw [Rule.applies, Rule.applies, hmatching]
    | _ => rfl
  rw [ruleOf?, ruleOf?, happlies]

theorem callKey_congr {key : String} (h : registry'.get? key = registry.get? key) :
    callKey registry' key = callKey registry key := by
  funext param
  rw [callKey, callKey, Registry.require, Registry.require, h]

/-- The forms of their own ask for three keys and for nothing else. -/
theorem build_congr (hget : ∀ key ∈ Rule.calleeKeys, registry'.get? key = registry.get? key)
    {rule : Rule} (hrule : rule ≠ .action) :
    build registry' item rule = build registry item rule := by
  cases rule with
  | input =>
    show buildInput registry' item = buildInput registry item
    rw [buildInput, buildInput, callKey_congr (hget "Input" (by decide))]
  | keyboardPress =>
    show buildKeyboardPress registry' item = buildKeyboardPress registry item
    rw [buildKeyboardPress, buildKeyboardPress, callKey_congr (hget "KeyboardPress" (by decide))]
  | scroll =>
    show buildScroll registry' item = buildScroll registry item
    rw [buildScroll, buildScroll, callKey_congr (hget "Scroll" (by decide))]
  | action => exact absurd rfl hrule
  | _ => rfl

/-- Steps whose own form asks for nothing else resolve to the same. -/
theorem resolve_congr (hget : ∀ key ∈ Rule.calleeKeys, registry'.get? key = registry.get? key)
    (hmatching : (registry'.matching item).isEmpty = (registry.matching item).isEmpty)
    (haction : ruleOf? registry item = some .action →
      buildAction registry' item = buildAction registry item) :
    resolve registry' item = resolve registry item := by
  unfold resolve
  rw [ruleOf?_congr hmatching]
  cases hrule : ruleOf? registry item with
  | none => rfl
  | some rule =>
    dsimp only
    by_cases haction' : rule = .action
    · subst haction'
      rw [build, build, haction hrule]
    · rw [build_congr hget haction']

/-- The same outcome, but for the order in which an error lists actions. -/
inductive Relisted : Checked Step → Checked Step → Prop
  | refl (x : Checked Step) : Relisted x x
  | ambiguousItem {names names' : List String} (item : Item) (h : names.Perm names') :
      Relisted (throw (.ambiguousItem names item)) (throw (.ambiguousItem names' item))

theorem resolve_permuted (h : registry'.actions.Perm registry.actions) (item : Item) :
    Relisted (resolve registry item) (resolve registry' item) := by
  have hget := fun key (_ : key ∈ Rule.calleeKeys) => Registry.get?_permuted h key
  have hlength := (Registry.matching_permuted h item).length_eq
  have hempty : (registry'.matching item).isEmpty = (registry.matching item).isEmpty := by
    rw [Bool.eq_iff_iff, List.isEmpty_iff_length_eq_zero, List.isEmpty_iff_length_eq_zero, hlength]
  rcases Nat.lt_or_ge 1 (registry.matching item).length with hmany | hfew
  · by_cases hrule : ruleOf? registry item = some .action
    · have hrule' : ruleOf? registry' item = some .action := (ruleOf?_congr hempty).trans hrule
      have hseveral : 2 ≤ (registry.named item).length := by
        rw [← registry.matching_map_fst, List.length_map]
        exact hmany
      have hnamed := Registry.named_permuted h item
      have hseveral' : 2 ≤ (registry'.named item).length := hnamed.length_eq ▸ hseveral
      rw [resolve_of_ruleOf? hrule, resolve_of_ruleOf? hrule', build, build,
        buildAction_of_several hseveral, buildAction_of_several hseveral']
      exact .ambiguousItem item (hnamed.symm.map _)
    · rw [resolve_congr hget hempty fun haction => absurd haction hrule]
      exact .refl _
  · have hmatching := Registry.matching_eq_of_few h hfew
    rw [resolve_congr hget hempty fun _ => by rw [buildAction, buildAction, hmatching]]
    exact .refl _

/-- **Other actions do not matter.** If a list of actions makes a registry, then so does the list in
any other order, and any item resolves to the same with it, but for the order in which an error
lists actions. So does the list with one more action, wherever that stands, if no key of it is one
of the other actions', of the item, or of those by which forms of steps find their actions; and then
the item resolves to the very same. -/
theorem bystanders_ignored {actions : List Action} {registry : Registry}
    (hregistry : Registry.build actions = .ok registry) (item : Item) :
    (∀ actions' : List Action, actions'.Perm actions →
      ∃ registry', Registry.build actions' = .ok registry' ∧
        Relisted (resolve registry item) (resolve registry' item)) ∧
    ∀ (before after : List Action) (extra : Action), actions = before ++ after →
      extra.IsBystander actions item →
        ∃ registry', Registry.build (before ++ extra :: after) = .ok registry' ∧
          resolve registry' item = resolve registry item := by
  have hapart := Registry.build_ok_iff.mp ⟨registry, hregistry⟩
  have hactions := Registry.actions_build hregistry
  refine ⟨fun actions' hperm => ?_, fun before after extra hsplit hextra => ?_⟩
  · have hapart' : actions'.Pairwise Action.Apart :=
      (hperm.pairwise_iff Action.Apart.symm).mpr hapart
    obtain ⟨registry', hregistry'⟩ := Registry.build_ok_iff.mpr hapart'
    refine ⟨registry', hregistry', resolve_permuted ?_ item⟩
    rw [hactions, Registry.actions_build hregistry']
    exact hperm
  · have hapart' : (before ++ extra :: after).Pairwise Action.Apart := by
      rw [List.pairwise_middle Action.Apart.symm, List.pairwise_cons, ← hsplit]
      exact ⟨fun a ha key hkey => (hextra key hkey).1 a ha, hapart⟩
    obtain ⟨registry', hregistry'⟩ := Registry.build_ok_iff.mpr hapart'
    have hactions' := Registry.actions_build hregistry'
    rw [hsplit] at hactions
    have hmatching : registry'.matching item = registry.matching item :=
      Registry.matching_inserted hactions hactions' fun key hkey => (hextra key hkey).2.1
    refine ⟨registry', hregistry', resolve_congr (fun key hkey => ?_) (by rw [hmatching])
      fun _ => by rw [buildAction, buildAction, hmatching]⟩
    exact Registry.get?_inserted hactions hactions' fun hmem => (hextra key hmem).2.2 hkey

/-- A step that names two actions, among them in the other order, and one that is typed by an action
found by its alias, with another action between. -/
theorem bystanders_ignored_dictation :
    let both : Item := [("Dictate", .null), ("aiTap", .str "box")]
    let typed : Item := [("aiInput", .str "box"), ("value", .str "shoes")]
    Registry.build [.standard .tap, dictating] = .ok dictation ∧
      (resolve dictation both).run.value = .error (.ambiguousItem ["Tap", "Dictate"] both) ∧
      (∃ registry', Registry.build [dictating, .standard .tap] = .ok registry' ∧
        Relisted (resolve dictation both) (resolve registry' both)) ∧
      (Action.standard .hover).IsBystander [.standard .tap, dictating] typed ∧
      (∃ s, (resolve dictation typed).run.value = .ok s) ∧
      ∃ registry', Registry.build [.standard .tap, .standard .hover, dictating] = .ok registry' ∧
        resolve registry' typed = resolve dictation typed := by
  intro both typed
  have hregistry : Registry.build [.standard .tap, dictating] = .ok dictation := rfl
  have hswapped : [dictating, Action.standard .tap].Perm [.standard .tap, dictating] := .swap ..
  have hhover : (Action.standard .hover).IsBystander [.standard .tap, dictating] typed := by decide
  obtain ⟨hpermuted, -⟩ := bystanders_ignored hregistry both
  obtain ⟨-, hinserted⟩ := bystanders_ignored hregistry typed
  exact ⟨hregistry, rfl, hpermuted _ hswapped, hhover, ⟨_, rfl⟩,
    hinserted [.standard .tap] [dictating] _ rfl hhover⟩

end Step

end Runbook
