/-
Which action a step without a form of its own is for.

There are two ways to ask: go through the actions and see whether the step has a key of theirs
(`matching`), or go through the keys of the step and look each of them up (`get?`). Both find the
same actions (`mem_named_iff`), and the first finds each once and in the order of the registry,
however many of its keys the step has. So the lookups tell what becomes of the step: nothing is
found, or several actions are, or there is one and the step is a call of it (`resolve_by_lookup`).
-/
import Runbook.Proofs.Step.Dispatch
import Runbook.Proofs.Step.Rules

namespace Runbook

open Item

/-! ## The actions that an item names -/

namespace Action

variable {a : Action} {item : Item} {key : String}

/-- The key by which an item names the action: the first of its keys that the item has. -/
def keyIn? (a : Action) (item : Item) : Option String :=
  a.keys.find? fun key => Fields.contains key item

theorem isSome_keyIn? :
    (a.keyIn? item).isSome = true ↔ ∃ key ∈ a.keys, key ∈ Fields.keys item := by
  simp only [keyIn?, List.find?_isSome, Fields.contains_iff_mem_keys]

theorem mem_of_keyIn? (h : a.keyIn? item = some key) :
    key ∈ a.keys ∧ key ∈ Fields.keys item := by
  have hcontains : Fields.contains key item = true := by simpa only using List.find?_some h
  exact ⟨List.mem_of_find?_eq_some h, Fields.contains_iff_mem_keys.mp hcontains⟩

/-- The alias comes before the name. -/
theorem keyIn?_of_alias (halias : a.interfaceAlias = some key) (hkey : key ∈ Fields.keys item) :
    a.keyIn? item = some key := by
  simp [keyIn?, Action.keys, halias, Fields.contains_iff_mem_keys.mpr hkey]

end Action

namespace Registry

variable {registry : Registry} {item : Item} {a : Action}

/-- A key of the item looks up to the action. -/
def Finds (registry : Registry) (item : Item) (a : Action) : Prop :=
  ∃ key ∈ Fields.keys item, registry.get? key = some a

/-- The actions of which an item has a key. -/
def named (registry : Registry) (item : Item) : List Action :=
  registry.actions.filter fun a => (a.keyIn? item).isSome

/-- Going through the actions finds what going through the keys finds. -/
theorem mem_named_iff : a ∈ registry.named item ↔ registry.Finds item a := by
  simp only [named, List.mem_filter, Action.isSome_keyIn?, Finds, get?_eq_some_iff]
  constructor
  · rintro ⟨ha, key, hkey, hitem⟩
    exact ⟨key, hitem, ha, hkey⟩
  · rintro ⟨key, hitem, ha, hkey⟩
    exact ⟨ha, key, hkey, hitem⟩

theorem named_sublist (registry : Registry) (item : Item) :
    (registry.named item).Sublist registry.actions := List.filter_sublist

theorem nodup_named (registry : Registry) (item : Item) : (registry.named item).Nodup := by
  refine List.Pairwise.imp Action.Apart.ne ?_
  exact List.Pairwise.sublist (named_sublist registry item) registry.separate

theorem matching_map_fst (registry : Registry) (item : Item) :
    (registry.matching item).map Prod.fst = registry.named item := by
  unfold matching named
  induction registry.actions with
  | nil => rfl
  | cons a rest ih =>
    rw [List.filterMap_cons, List.filter_cons, ← ih]
    show _ = if (a.keyIn? item).isSome = true then _ else _
    unfold Action.keyIn?
    cases a.keys.find? fun key => Fields.contains key item <;> rfl

theorem keyIn?_of_mem_matching {key : String} (h : (a, key) ∈ registry.matching item) :
    a.keyIn? item = some key := by
  obtain ⟨b, -, hb⟩ := List.mem_filterMap.mp h
  obtain ⟨k, hk, heq⟩ := Option.map_eq_some_iff.mp hb
  cases heq
  exact hk

theorem named_eq_nil_iff :
    registry.named item = [] ↔ ∀ key ∈ Fields.keys item, registry.get? key = none := by
  rw [List.eq_nil_iff_forall_not_mem]
  constructor
  · intro h key hkey
    rw [Option.eq_none_iff_forall_ne_some]
    exact fun a ha => h a (mem_named_iff.mpr ⟨key, hkey, ha⟩)
  · intro h a ha
    obtain ⟨key, hkey, hget⟩ := mem_named_iff.mp ha
    exact absurd (h key hkey) (by simp [hget])

end Registry

/-! ## What becomes of the item -/

namespace Step

variable {registry : Registry} {item : Item} {a : Action}

/-- Whatever an action is given, its call ends as the check of some parameters does. -/
theorem buildCall_value (a : Action) (key : String) (item : Item) :
    ∃ given, (buildCall a key item).run.value = (callOf a given).run.value := by
  unfold buildCall
  dsimp only
  split
  · exact ⟨_, rfl⟩
  · exact ⟨_, rfl⟩

theorem ruleOf?_of_spares (h : Rule.action.Spares registry item) :
    ruleOf? registry item =
      if (registry.matching item).isEmpty then none else some .action := by
  split
  · next hempty =>
    rw [ruleOf?, List.find?_eq_none, Rule.all_eq .action]
    intro r hr
    rcases List.mem_append.mp hr with hr | hr
    · simp [h r hr]
    · obtain rfl := List.mem_singleton.mp hr
      simp [Rule.applies, hempty]
  · next hempty =>
    exact ruleOf?_eq_some (by simpa [Rule.applies] using hempty) h

/-- A step to which no other rule applies is worked out by its actions. -/
theorem resolve_of_spares (h : Rule.action.Spares registry item) :
    resolve registry item = (do
      let command ← buildAction registry item
      pure ⟨.action, resultName? item, command⟩) := by
  unfold resolve
  rw [ruleOf?_of_spares h]
  by_cases hempty : (registry.matching item).isEmpty = true
  · rw [if_pos hempty, buildAction, List.isEmpty_iff.mp hempty]
    rfl
  · rw [if_neg hempty]
    rfl

theorem resolve_of_none (h : Rule.action.Spares registry item) (hnone : registry.named item = []) :
    resolve registry item = throw (.unknownItem item) := by
  have hmatching : registry.matching item = [] := by
    rw [← List.map_eq_nil_iff, registry.matching_map_fst, hnone]
  rw [resolve_of_spares h, buildAction, hmatching]
  rfl

/-- A step for one action is a call of it, or the error of its check. -/
theorem resolve_of_one (h : Rule.action.Spares registry item) (hone : registry.named item = [a]) :
    ∃ key, a.keyIn? item = some key ∧
      resolve registry item = (do
        let command ← buildCall a key item
        pure ⟨.action, resultName? item, command⟩) ∧
      ∃ given, (resolve registry item).run.value = match a.normalize given with
        | .ok v => .ok ⟨.action, resultName? item, .ask (.call a.name v)⟩
        | .error e => .error (.validation e) := by
  obtain ⟨⟨b, key⟩, hmatching, hb⟩ : ∃ m, registry.matching item = [m] ∧ m.1 = a := by
    have hmap := registry.matching_map_fst item
    rw [hone, List.map_eq_singleton_iff] at hmap
    exact hmap
  obtain rfl : b = a := hb
  have hresolve : resolve registry item = (do
      let command ← buildCall b key item
      pure ⟨.action, resultName? item, command⟩) := by
    rw [resolve_of_spares h, buildAction, hmatching]
  refine ⟨key, Registry.keyIn?_of_mem_matching (by rw [hmatching]; simp), hresolve, ?_⟩
  obtain ⟨given, hgiven⟩ := buildCall_value b key item
  refine ⟨given, ?_⟩
  rw [hresolve]
  generalize buildCall b key item = call at hgiven
  obtain ⟨warnings, value⟩ := call
  obtain rfl : value = (callOf b given).run.value := hgiven
  unfold callOf
  cases b.normalize given <;> rfl

theorem buildAction_of_several (hseveral : 2 ≤ (registry.named item).length) :
    buildAction registry item =
      throw (.ambiguousItem ((registry.named item).map Action.name) item) := by
  have hnames : (registry.matching item).map (fun m => m.1.name) =
      (registry.named item).map Action.name := by
    rw [← registry.matching_map_fst, List.map_map]
    rfl
  rw [← registry.matching_map_fst, List.length_map] at hseveral
  rw [← hnames, buildAction]
  split
  · next hmatching =>
    rw [hmatching] at hseveral
    simp at hseveral
  · next hmatching =>
    rw [hmatching] at hseveral
    simp at hseveral
  · rfl

theorem resolve_of_several (h : Rule.action.Spares registry item)
    (hseveral : 2 ≤ (registry.named item).length) : resolve registry item =
      throw (.ambiguousItem ((registry.named item).map Action.name) item) := by
  rw [resolve_of_spares h, buildAction_of_several hseveral]
  rfl

/-- **What the keys of a step look up to decides what becomes of it**, if none of the forms that
come first is its own. It is unknown if and only if no key of it is found. It is ambiguous if and
only if two of its keys are found for different actions, and then the error lists the actions that
are found, each once and in their order. Else all of its keys that are found are found for one
action, and the step is for that action: by its alias, if the step has it, it ends as a call of the
action or with the error of the action's check. -/
theorem resolve_by_lookup {actions : List Action} {registry : Registry}
    (hregistry : Registry.build actions = .ok registry) {item : Item}
    (hspares : Rule.action.Spares registry item) :
    let outcome := (resolve registry item).run.value
    (∀ shown, outcome = .error (.unknownItem shown) ↔
      shown = item ∧ ∀ key ∈ Fields.keys item, registry.get? key = none) ∧
    ((∃ names shown, outcome = .error (.ambiguousItem names shown)) ↔
      ∃ a b, registry.Finds item a ∧ registry.Finds item b ∧ a ≠ b) ∧
    (∀ names shown, outcome = .error (.ambiguousItem names shown) → shown = item ∧
      ∃ several : List Action, several.Sublist actions ∧ several.Nodup ∧
        (∀ a, a ∈ several ↔ registry.Finds item a) ∧ names = several.map Action.name) ∧
    ∀ a, registry.Finds item a → (∀ b, registry.Finds item b → b = a) →
      ∃ key, (key ∈ a.keys ∧ key ∈ Fields.keys item) ∧
        (∀ s, a.interfaceAlias = some s → s ∈ Fields.keys item → key = s) ∧
        resolve registry item = (do
          let command ← buildCall a key item
          pure ⟨.action, resultName? item, command⟩) ∧
        ∃ given, outcome = match a.normalize given with
          | .ok v => .ok ⟨.action, resultName? item, .ask (.call a.name v)⟩
          | .error e => .error (.validation e) := by
  intro outcome
  obtain rfl := Registry.actions_build hregistry
  have hnodup := registry.nodup_named item
  simp only [← Registry.mem_named_iff, ← Registry.named_eq_nil_iff]
  cases hnamed : registry.named item with
  | nil =>
    have houtcome : outcome = .error (.unknownItem item) := by
      show (resolve registry item).run.value = _
      rw [resolve_of_none hspares hnamed]
      rfl
    simp [houtcome, eq_comm]
  | cons a rest =>
    cases rest with
    | nil =>
      obtain ⟨key, hkey, hresolve, given, hgiven⟩ := resolve_of_one hspares hnamed
      have houtcome : outcome = match a.normalize given with
        | .ok v => .ok ⟨.action, resultName? item, .ask (.call a.name v)⟩
        | .error e => .error (.validation e) := hgiven
      refine ⟨fun shown => ?_, ?_, fun names shown h => ?_, fun b hb _ => ?_⟩
      · rw [houtcome]
        cases a.normalize given <;> simp
      · rw [houtcome]
        cases a.normalize given <;> simp
      · rw [houtcome] at h
        cases hnormalize : a.normalize given <;> rw [hnormalize] at h <;> cases h
      · obtain rfl := List.mem_singleton.mp hb
        refine ⟨key, Action.mem_of_keyIn? hkey, fun s hs hmem => ?_, hresolve, given, hgiven⟩
        exact Option.some.inj (hkey.symm.trans (Action.keyIn?_of_alias hs hmem))
    | cons b rest =>
      have houtcome : outcome =
          .error (.ambiguousItem ((registry.named item).map Action.name) item) := by
        show (resolve registry item).run.value = _
        rw [resolve_of_several hspares (by simp [hnamed])]
        rfl
      rw [hnamed, List.nodup_cons] at hnodup
      have hne : a ≠ b := fun heq => hnodup.1 (heq ▸ List.mem_cons_self)
      refine ⟨fun shown => ?_, ?_, fun names shown h => ?_, fun c _ honly => ?_⟩
      · simp [houtcome]
      · refine ⟨fun _ => ⟨a, b, by simp, by simp, hne⟩, fun _ => ⟨_, _, houtcome⟩⟩
      · rw [houtcome] at h
        cases h
        have hmem : ∀ c, c ∈ registry.named item ↔ c ∈ a :: b :: rest := by simp [hnamed]
        exact ⟨rfl, _, registry.named_sublist item, registry.nodup_named item, hmem, rfl⟩
      · exact absurd ((honly a (by simp)).trans (honly b (by simp)).symm) hne

/-- Steps with a key of no action, with keys of two, one of them twice, and with two keys of one. -/
theorem resolve_by_lookup_dictation :
    let unknown : Item := [("aiFly", .str "away")]
    let ambiguous : Item := [("Dictate", .null), ("aiTap", .str "box"), ("Input", .null)]
    let twice : Item := [("Tap", .str "box"), ("aiTap", .str "button")]
    Registry.build [.standard .tap, dictating] = .ok dictation ∧
      (∀ item ∈ [unknown, ambiguous, twice], Rule.action.Spares dictation item) ∧
      (resolve dictation unknown).run.value = .error (.unknownItem unknown) ∧
      (resolve dictation ambiguous).run.value =
        .error (.ambiguousItem ["Tap", "Dictate"] ambiguous) ∧
      (∃ several : List Action, several.Sublist [.standard .tap, dictating] ∧ several.Nodup ∧
        ["Tap", "Dictate"] = several.map Action.name) ∧
      dictation.Finds twice (.standard .tap) ∧
      resolve dictation twice = (do
        let command ← buildCall (.standard .tap) "aiTap" twice
        pure ⟨.action, none, command⟩) := by
  intro unknown ambiguous twice
  have hregistry : Registry.build [.standard .tap, dictating] = .ok dictation := rfl
  have hspares : ∀ item ∈ [unknown, ambiguous, twice], Rule.action.Spares dictation item := by
    decide
  obtain ⟨hnone, -⟩ := resolve_by_lookup hregistry (hspares unknown (by simp))
  obtain ⟨-, -, hlisted, -⟩ := resolve_by_lookup hregistry (hspares ambiguous (by simp))
  obtain ⟨-, -, -, hone⟩ := resolve_by_lookup hregistry (hspares twice (by simp))
  have hunknown := (hnone unknown).mpr ⟨rfl, by simp [unknown, Fields.keys]; rfl⟩
  have hambiguous : (resolve dictation ambiguous).run.value =
      .error (.ambiguousItem ["Tap", "Dictate"] ambiguous) := rfl
  obtain ⟨-, several, hsublist, hnodup, -, hnames⟩ := hlisted _ _ hambiguous
  have htap : dictation.Finds twice (.standard .tap) :=
    ⟨"Tap", by simp [twice, Fields.keys], rfl⟩
  have honly : ∀ b, dictation.Finds twice b → b = .standard .tap := by
    rintro b ⟨key, hkey, hget⟩
    have hkeys : key = "Tap" ∨ key = "aiTap" := by simpa [twice, Fields.keys] using hkey
    rcases hkeys with rfl | rfl
    · exact (Option.some.inj hget).symm
    · exact (Option.some.inj hget).symm
  obtain ⟨key, -, halias, hresolve, -⟩ := hone _ htap honly
  obtain rfl := halias "aiTap" rfl (by simp [twice, Fields.keys])
  exact ⟨hregistry, hspares, hunknown, hambiguous, ⟨several, hsublist, hnodup, hnames⟩, htap,
    hresolve⟩

end Step

end Runbook
