/-
The ways of writing a step for an action that has no form of its own.

The step names its action by alias or by name. What the action is given stands as an object under
that key or beside it, and its target as a text under the key or under `prompt`. Each of these
comes to the same call (`spellings_agree`), whatever else the step holds and whatever the action
takes: all that is given is put into one list of options, out of which the keys of the action are
dropped again (`callWith`). What is left stands in the same order as long as the step is written as
shown (`Interchange.written`), so no function of the action tells the spellings apart; in another
order it has the same keys.
-/
import Runbook.Proofs.Step.Generations
import Runbook.Proofs.Step.KeyOrder

namespace Runbook

open Item

/-! ## Items that name one action -/

/-- The keys that decide the form of a step whatever the actions are. -/
def Rule.intrinsicKeys : List String := Rule.action.above.flatMap Rule.keys

theorem Rule.mem_intrinsicKeys {key : String} {rule : Rule} (hrule : rule ∈ Rule.action.above)
    (hkey : key ∈ rule.keys) : key ∈ Rule.intrinsicKeys :=
  List.mem_flatMap.mpr ⟨rule, hrule, hkey⟩

/-- The keys of the action say nothing but that a step is for it: none decides a form, names the
result or belongs to a target. -/
def Action.HasPlainKeys (a : Action) : Prop :=
  ∀ key ∈ a.keys, key ∉ Rule.intrinsicKeys ∧ key ∉ resultKey :: "locate" :: Locator.keys

instance (a : Action) : Decidable a.HasPlainKeys :=
  inferInstanceAs (Decidable (∀ key ∈ a.keys, _ ∧ _))

namespace Registry

variable {registry : Registry} {a : Action} {key : String} {item : Item}

/-- None of the entries decides the form of a step or names an action. -/
def Ignores (registry : Registry) (fs : Object) : Prop :=
  ∀ key ∈ Fields.keys fs, key ∉ Rule.intrinsicKeys ∧ ∀ a ∈ registry.actions, key ∉ a.keys

instance (registry : Registry) (fs : Object) : Decidable (registry.Ignores fs) :=
  inferInstanceAs (Decidable (∀ key ∈ Fields.keys fs, _ ∧ _))

theorem Ignores.merge {fs es : Object} (h : registry.Ignores fs) (hes : registry.Ignores es) :
    registry.Ignores (Fields.merge fs es) := by
  intro key hkey
  by_cases hmem : key ∈ Fields.keys es
  · exact hes key hmem
  · refine h key ?_
    by_contra hnot
    rw [← Fields.get?_eq_none_iff] at hnot
    exact Fields.get?_eq_none_iff.mp ((Fields.get?_merge_of_not_mem hmem).trans hnot) hkey

/-- An item that has one key of one action is for that action. -/
theorem matching_eq (ha : a ∈ registry.actions) (hkey : key ∈ a.keys)
    (honly : ∀ b ∈ registry.actions, ∀ k ∈ b.keys, Fields.contains k item = true ↔ k = key) :
    registry.matching item = [(a, key)] := by
  have hown : a.keys.find? (fun k => Fields.contains k item) = some key := by
    cases hfind : a.keys.find? (fun k => Fields.contains k item) with
    | none => exact absurd ((honly a ha key hkey).mpr rfl) (List.find?_eq_none.mp hfind key hkey)
    | some k =>
      have hcontains : Fields.contains k item = true := by
        simpa only using List.find?_some hfind
      rw [(honly a ha k (List.mem_of_find?_eq_some hfind)).mp hcontains]
  obtain ⟨as, bs, hsplit⟩ := List.append_of_mem ha
  have hseparate := registry.separate
  rw [hsplit, List.pairwise_append, List.pairwise_cons] at hseparate
  obtain ⟨-, ⟨hlater, -⟩, hearlier⟩ := hseparate
  -- Another action has not the key, and so none that the item has.
  have hother : ∀ b ∈ registry.actions, key ∉ b.keys →
      (b.keys.find? fun k => Fields.contains k item).map (b, ·) = none := by
    intro b hb hnot
    rw [Option.map_eq_none_iff, List.find?_eq_none]
    exact fun k hk hcontains => hnot ((honly b hb k hk).mp hcontains ▸ hk)
  unfold matching
  rw [hsplit] at hother ⊢
  rw [List.filterMap_append, List.filterMap_cons, hown, List.filterMap_eq_nil_iff.mpr,
    List.filterMap_eq_nil_iff.mpr]
  · rfl
  · exact fun b hb => hother b (by simp [hb]) (hlater b hb key hkey)
  · refine fun b hb => hother b (by simp [hb]) fun hmem => ?_
    exact hearlier b hb a (by simp) key hmem hkey

end Registry

/-! ## What is given to the action -/

namespace Locator

/-- A prompt that is given need not be given where it stands under `prompt` too. -/
theorem build_of_promptAt? {p : Prompt} {options : Object}
    (h : promptAt? "prompt" options = some p) (hself : p.sameAs p = true) :
    Locator.build (some p) options = Locator.build none options := by
  simp only [Locator.build, h, hself, if_true, Option.some_or, Option.none_or]

end Locator

namespace Fields

/-- What is found after a merge depends on what was found before. -/
theorem get?_merge_congr {α : Type} {key : String} {fs gs : Fields α} (es : Fields α)
    (h : get? key fs = get? key gs) : get? key (merge fs es) = get? key (merge gs es) := by
  induction es generalizing fs gs with
  | nil => exact h
  | cons e es ih =>
    refine ih ?_
    rw [get?_insert, get?_insert, h]

end Fields

namespace Step

open Checked (Alike)

variable {registry : Registry} {a : Action} {item item' : Item}

theorem distinct_ownOptions (own : Value) (h : Fields.Distinct item) :
    Fields.Distinct (ownOptions own item) := by
  have hmerged : ∀ fs : Object, Fields.Distinct (Fields.merge item fs) :=
    fun fs => Fields.distinct_merge h
  unfold ownOptions
  dsimp only
  split
  · split
    · exact Fields.distinct_insert (hmerged _)
    · exact Fields.distinct_insert h
  · split
    · exact hmerged _
    · exact h

theorem get?_ownOptions_congr {key : String} (own : Value)
    (h : Fields.get? key item = Fields.get? key item') :
    Fields.get? key (ownOptions own item) = Fields.get? key (ownOptions own item') := by
  unfold ownOptions
  dsimp only
  split
  · rw [Fields.get?_insert, Fields.get?_insert]
    split
    · rfl
    · split
      · exact Fields.get?_merge_congr _ h
      · exact h
  · split
    · exact Fields.get?_merge_congr _ h
    · exact h

theorem without_ownOptions_congr {names : List String} (own : Value)
    (h : Fields.without names item = Fields.without names item') :
    Fields.without names (ownOptions own item) = Fields.without names (ownOptions own item') := by
  unfold ownOptions
  dsimp only
  split
  · refine Fields.without_insert_congr ?_ "prompt" _
    split
    · exact Fields.without_merge_congr h _
    · exact h
  · split
    · exact Fields.without_merge_congr h _
    · exact h

/-- The keys of an action are none that means something else in a step. -/
theorem not_mem_keys_of_meant (hplain : a.HasPlainKeys) {key : String}
    (hkey : key ∈ resultKey :: "locate" :: Locator.keys) : key ∉ a.keys :=
  fun hmem => (hplain key hmem).2 hkey

/-- The target of an action is the same whatever its keys hold. -/
theorem build_off_keys {options options' : Object} (hplain : a.HasPlainKeys)
    (h : ∀ key ∉ a.keys, Fields.get? key options = Fields.get? key options')
    (prompt : Option Prompt) : Locator.build prompt options = Locator.build prompt options' :=
  Locator.build_congr
    (fun key hkey => h key (not_mem_keys_of_meant hplain (by simp [hkey])))
    fun _ => h "locate" (not_mem_keys_of_meant hplain (by simp))

/-- Among what is left out of the options of an action are its keys. -/
theorem without_ownKeys (names : List String) (options : Object) :
    Fields.without (names ++ ownKeys a) (Fields.without a.keys options) =
      Fields.without (names ++ ownKeys a) options := by
  refine Fields.without_without (fun key hkey => List.mem_append_right _ ?_) options
  simp only [Action.keys, List.mem_append, List.mem_singleton] at hkey
  rcases hkey with hkey | rfl
  · simp [ownKeys, hkey]
  · simp [ownKeys]

/-- What the keys of the action hold does not matter to its call, nor what its target uses up, as
long as the target is the same. -/
theorem callWith_congr {prompt prompt' : Option Prompt} {options options' : Object}
    (hlocator : Locator.build prompt options = Locator.build prompt' options')
    (hrest : ∀ used, ((Locator.build prompt options).value.isSome → used = Locator.keys) →
      Fields.without used (Fields.without a.keys options) =
        Fields.without used (Fields.without a.keys options')) :
    callWith a prompt options = callWith a prompt' options' := by
  have hleft : ∀ used, ((Locator.build prompt options).value.isSome → used = Locator.keys) →
      Fields.without ("locate" :: used ++ ownKeys a) options =
        Fields.without ("locate" :: used ++ ownKeys a) options' := by
    intro used hused
    have hsub : ∀ key ∈ used, key ∈ "locate" :: used ++ ownKeys a := fun key hkey => by simp [hkey]
    rw [← without_ownKeys _ options, ← without_ownKeys _ options',
      ← Fields.without_without hsub (Fields.without a.keys options), hrest used hused,
      Fields.without_without hsub]
  unfold callWith Locator.split
  rw [← hlocator]
  generalize Locator.build prompt options = built at hleft
  obtain ⟨ws, locator⟩ := built
  have hsame := hleft (if locator.isSome then Locator.keys else []) fun hsome => if_pos hsome
  simp only [bind, Logged.bind, pure, Logged.pure, hsame]

/-- In another order the options come to what the action makes of parameters in another order. -/
theorem callWith_off_keys {R : Value → Value → Prop} (hkeeps : a.Keeps R)
    {prompt prompt' : Option Prompt} {options options' : Object}
    (hd : Fields.Distinct options) (hd' : Fields.Distinct options')
    (hlocator : Locator.build prompt options = Locator.build prompt' options')
    (h : ∀ key ∉ a.keys, Fields.get? key options = Fields.get? key options') :
    Alike (Command.Upto R) (callWith a prompt options) (callWith a prompt' options') := by
  refine callWith_alike hkeeps hlocator fun used => ?_
  rw [← without_ownKeys _ options, ← without_ownKeys _ options']
  refine Fields.Reordered.without (.of_get? (Fields.distinct_without _ hd)
    (Fields.distinct_without _ hd') fun key => ?_) _
  rw [Fields.get?_without, Fields.get?_without]
  split
  · rfl
  · next hkey => exact h key hkey

/-! ## Items that spell the same call -/

variable {key key' : String} {rest rest' : Object} {own own' : Value}

namespace Spells

theorem get?_key (h : Spells item [(key, own)] rest) : Fields.get? key item = some own :=
  h.get?_own (by simp [Fields.get?])

/-- Off the keys of the action the item has what the rest has. -/
theorem get?_rest (h : Spells item [(key, own)] rest) (hkey : key ∈ a.keys) :
    ∀ k ∉ a.keys, Fields.get? k item = Fields.get? k rest := by
  intro k hk
  have hne : k ≠ key := fun heq => hk (heq ▸ hkey)
  exact h.get?_off (by simpa [Fields.keys] using hne)

/-- An item with a key of an action, and else nothing that names one, is for the action. -/
theorem matching (h : Spells item [(key, own)] rest) (ha : a ∈ registry.actions)
    (hkey : key ∈ a.keys) (hrest : registry.Ignores rest) :
    registry.matching item = [(a, key)] := by
  refine Registry.matching_eq ha hkey fun b hb k hk => ?_
  rw [Fields.contains_iff_get?, Option.isSome_iff_exists]
  constructor
  · rintro ⟨v, hv⟩
    by_contra hne
    rw [h.get?_off (by simpa [Fields.keys] using hne)] at hv
    exact (hrest k (Fields.mem_keys_of_get? hv)).2 b hb hk
  · rintro rfl
    exact ⟨own, h.get?_key⟩

theorem ruleOf?_action (h : Spells item [(key, own)] rest) (ha : a ∈ registry.actions)
    (hplain : a.HasPlainKeys) (hkey : key ∈ a.keys) (hrest : registry.Ignores rest) :
    Step.ruleOf? registry item = some .action := by
  refine ruleOf?_eq_some ?_ fun r hr => ?_
  · rw [Rule.applies, h.matching ha hkey hrest]
    rfl
  · have hr' : r ≠ .action := fun heq => Rule.action.action_not_mem_above (heq ▸ hr)
    rw [r.applies_eq_hasAny hr', Bool.eq_false_iff, ne_eq, hasAny_iff]
    rintro ⟨k, hk, hsome⟩
    have hintrinsic := Rule.mem_intrinsicKeys hr hk
    obtain ⟨v, hv⟩ := Option.isSome_iff_exists.mp hsome
    rw [h.get?_rest hkey k fun hmem => (hplain k hmem).1 hintrinsic] at hv
    exact (hrest k (Fields.mem_keys_of_get? hv)).1 hintrinsic

/-- A spelling for an action comes to its call, under the name that the rest gives the result. -/
theorem resolve_eq (h : Spells item [(key, own)] rest) (ha : a ∈ registry.actions)
    (hplain : a.HasPlainKeys) (hkey : key ∈ a.keys) (hrest : registry.Ignores rest) :
    resolve registry item = (do
      let command ← ownCall a own item
      pure ⟨.action, resultName? rest, command⟩) := by
  have hresult : resultKey ∉ a.keys := not_mem_keys_of_meant hplain (List.mem_cons_self ..)
  have hname : resultName? item = resultName? rest := by
    simp only [resultName?, h.get?_rest hkey _ hresult]
  rw [resolve_of_ruleOf? (h.ruleOf?_action ha hplain hkey hrest), hname]
  show (buildAction registry item >>= _) = _
  simp only [buildAction, h.matching ha hkey hrest]
  rw [buildCall_eq, h.get?_key, Value.ofOption]

end Spells

/-- Two spellings of a step for an action come to the same: as they are written, whatever functions
the action applies, and in any order of their entries, as far as these functions do not mind it. -/
structure Interchange (registry : Registry) (a : Action) (e : String × Value) (rest : Object)
    (e' : String × Value) (rest' : Object) : Prop where
  written : Fields.Distinct (e :: rest) → Fields.Distinct (e' :: rest') →
    resolve registry (e :: rest) = resolve registry (e' :: rest')
  anyOrder : ∀ item item', Spells item [e] rest → Spells item' [e'] rest' →
    Concord registry (· = a) item item'

/-- The entries name the action, and the result of the step in one way. -/
structure Names (registry : Registry) (a : Action) (key : String) (rest : Object) (key' : String)
    (rest' : Object) : Prop where
  mem : a ∈ registry.actions
  plain : a.HasPlainKeys
  key : key ∈ a.keys
  key' : key' ∈ a.keys
  spares : registry.Ignores rest
  spares' : registry.Ignores rest'
  result : Fields.get? resultKey rest = Fields.get? resultKey rest'

/-- Calls that come to the same make steps that do. -/
theorem Names.interchange (h : Names registry a key rest key' rest')
    (hwritten : ownCall a own ((key, own) :: rest) = ownCall a own' ((key', own') :: rest'))
    (hcall : ∀ R : Value → Value → Prop, a.Keeps R → ∀ item item',
      Spells item [(key, own)] rest → Spells item' [(key', own')] rest' →
        Alike (Command.Upto R) (ownCall a own item) (ownCall a own' item')) :
    Interchange registry a (key, own) rest (key', own') rest' := by
  have hresult : resultName? rest = resultName? rest' := by simp only [resultName?, h.result]
  constructor
  · intro hd hd'
    have hspells : Spells ((key, own) :: rest) [(key, own)] rest := .refl hd
    have hspells' : Spells ((key', own') :: rest') [(key', own')] rest' := .refl hd'
    rw [hspells.resolve_eq h.mem h.plain h.key h.spares,
      hspells'.resolve_eq h.mem h.plain h.key' h.spares', hwritten, hresult]
  · intro item item' hspells hspells'
    refine .of_keeps fun R hkeeps => ?_
    rw [hspells.resolve_eq h.mem h.plain h.key h.spares,
      hspells'.resolve_eq h.mem h.plain h.key' h.spares', hresult]
    exact (hcall R (hkeeps a rfl) item item' hspells hspells').bind fun _ _ hcommand =>
      .pure ⟨rfl, rfl, hcommand⟩

/-- By alias or by name, with the same under it. -/
theorem keys_agree (h : Names registry a key rest key' rest) (own : Value) :
    Interchange registry a (key, own) rest (key', own) rest := by
  refine h.interchange ?_ fun R hkeeps item item' hspells hspells' => ?_
  · have hoff : Fields.without a.keys (ownOptions own ((key, own) :: rest)) =
        Fields.without a.keys (ownOptions own ((key', own) :: rest)) := by
      refine without_ownOptions_congr own ?_
      rw [Fields.without_cons_of_mem h.key, Fields.without_cons_of_mem h.key']
    unfold ownCall
    split
    · rfl
    · have hlocator := build_off_keys h.plain (Fields.get?_of_without hoff)
      exact callWith_congr (hlocator _) fun used _ => congrArg (Fields.without used) hoff
  · have hoptions : ∀ k ∉ a.keys,
        Fields.get? k (ownOptions own item) = Fields.get? k (ownOptions own item') := by
      intro k hk
      exact get?_ownOptions_congr own
        ((hspells.get?_rest h.key k hk).trans (hspells'.get?_rest h.key' k hk).symm)
    unfold ownCall
    split
    · exact .refl .refl _
    · exact callWith_off_keys hkeeps (distinct_ownOptions _ hspells.distinct)
        (distinct_ownOptions _ hspells'.distinct) (build_off_keys h.plain hoptions _) hoptions

/-- What the action is given under its key or beside it. -/
theorem object_agrees {fs : Object} (h : Names registry a key rest key (Fields.merge rest fs)) :
    Interchange registry a (key, .obj fs) rest (key, .null) (Fields.merge rest fs) := by
  refine h.interchange ?_ fun R hkeeps item item' hspells hspells' => ?_
  · have hoff : Fields.without a.keys (Fields.merge ((key, .obj fs) :: rest) fs) =
        Fields.without a.keys ((key, .null) :: Fields.merge rest fs) := by
      rw [Fields.without_cons_of_mem h.key]
      exact Fields.without_merge_congr (Fields.without_cons_of_mem h.key _ _) fs
    have hlocator := build_off_keys h.plain (Fields.get?_of_without hoff) none
    exact callWith_congr hlocator fun used _ => congrArg (Fields.without used) hoff
  · have hoptions : ∀ k ∉ a.keys, Fields.get? k (Fields.merge item fs) = Fields.get? k item' := by
      intro k hk
      rw [hspells'.get?_rest h.key k hk]
      exact Fields.get?_merge_congr fs (hspells.get?_rest h.key k hk)
    exact callWith_off_keys hkeeps (Fields.distinct_merge hspells.distinct) hspells'.distinct
      (build_off_keys h.plain hoptions none) hoptions

/-- The target of the action as a text under its key or under `prompt`. -/
theorem prompt_agrees {s : String} (h : Names registry a key rest key rest')
    (hbare : a.acceptsBareString = false) (hs : s ≠ "")
    (hprompt : Fields.get? "prompt" rest' = some (.str s))
    (hothers : Fields.without ["prompt"] rest' = Fields.without ["prompt"] rest) :
    Interchange registry a (key, .str s) rest (key, .null) rest' := by
  have hown : ownPrompt (.str s) = some (.text s) := by simp [ownPrompt, Prompt.ofValue?, hs]
  have hoptions : ∀ item, ownOptions (.str s) item = Fields.insert "prompt" (.str s) item := by
    intro item
    simp only [ownOptions, hown, Prompt.toValue]
  -- The prompt is found in both, and beside it what is found in the rest.
  have hget : ∀ item item', (∀ k ∉ a.keys, Fields.get? k item = Fields.get? k rest) →
      (∀ k ∉ a.keys, Fields.get? k item' = Fields.get? k rest') → ∀ k ∉ a.keys,
        Fields.get? k (Fields.insert "prompt" (.str s) item) = Fields.get? k item' := by
    intro item item' hitem hitem' k hk
    rw [hitem' k hk, Fields.get?_insert, hitem k hk]
    split
    · next heq => rw [← heq, hprompt]
    · next hne => exact (Fields.get?_of_without hothers k (by simpa using Ne.symm hne)).symm
  have hlocator : ∀ item item', (∀ k ∉ a.keys,
      Fields.get? k (Fields.insert "prompt" (.str s) item) = Fields.get? k item') →
        Locator.build (some (.text s)) (Fields.insert "prompt" (.str s) item) =
          Locator.build none item' := by
    intro item item' hsame
    rw [Locator.build_of_promptAt? (p := .text s) ?_ ?_]
    · exact build_off_keys h.plain hsame none
    · simp [Locator.promptAt?, Fields.get?_insert, Prompt.ofValue?, hs]
    · simp [Prompt.sameAs, Prompt.toValue, Value.sameAs]
  have hcons : ∀ (v : Value) (others : Object), ∀ k ∉ a.keys,
      Fields.get? k ((key, v) :: others) = Fields.get? k others :=
    fun v others => Fields.get?_of_without (Fields.without_cons_of_mem h.key v others)
  refine h.interchange ?_ fun R hkeeps item item' hspells hspells' => ?_
  · rw [ownCall_of_not_bare hbare, ownCall_of_not_bare hbare, hown, hoptions]
    refine callWith_congr (hlocator _ _ (hget _ _ (hcons _ _) (hcons _ _))) fun used hused => ?_
    obtain rfl : used = Locator.keys := hused (by rw [Locator.value_build]; rfl)
    have hkeys : ∀ k ∈ ["prompt"], k ∈ Locator.keys := by decide
    show Fields.without Locator.keys (Fields.without a.keys (Fields.insert "prompt" (.str s) _)) =
      Fields.without Locator.keys (Fields.without a.keys ((key, .null) :: rest'))
    rw [Fields.without_comm, Fields.without_insert (by decide), Fields.without_comm,
      Fields.without_cons_of_mem h.key, Fields.without_cons_of_mem h.key, Fields.without_comm,
      ← Fields.without_without hkeys rest, ← hothers, Fields.without_without hkeys,
      Fields.without_comm]
  · rw [ownCall_of_not_bare hbare, ownCall_of_not_bare hbare, hown, hoptions]
    have hsame := hget _ _ (hspells.get?_rest h.key) (hspells'.get?_rest h.key')
    exact callWith_off_keys hkeeps (Fields.distinct_insert hspells.distinct) hspells'.distinct
      (hlocator _ _ hsame) hsame

/-- **The spellings of a step agree.** A step for an action comes to the same, whatever else it
holds and whatever the action takes, if it names the action by alias or by name; if what the action
is given stands under its key or beside it, in the place of what the step has there; and, for an
action that no text calls, if its target stands under its key or under `prompt`, as long as
`prompt` names no action. -/
theorem spellings_agree (registry : Registry) {a : Action} (ha : a ∈ registry.actions)
    (hplain : a.HasPlainKeys) (rest : Object) (hrest : registry.Ignores rest) :
    (∀ key own, a.interfaceAlias = some key →
      Interchange registry a (key, own) rest (a.name, own) rest) ∧
    (∀ key fs, key ∈ a.keys → registry.Ignores fs → resultKey ∉ Fields.keys fs →
      Interchange registry a (key, .obj fs) rest (key, .null) (Fields.merge rest fs)) ∧
    (a.acceptsBareString = false → ∀ key s rest', key ∈ a.keys → s ≠ "" →
      registry.Ignores rest' → Fields.get? "prompt" rest' = some (.str s) →
      Fields.without ["prompt"] rest' = Fields.without ["prompt"] rest →
        Interchange registry a (key, .str s) rest (key, .null) rest') := by
  refine ⟨fun key own halias => ?_, fun key fs hkey hfs hname => ?_,
    fun hbare key s rest' hkey hs hrest' hprompt hothers => ?_⟩
  · have hkey : key ∈ a.keys := by simp [Action.keys, halias]
    have hkey' : a.name ∈ a.keys := by simp [Action.keys]
    exact keys_agree ⟨ha, hplain, hkey, hkey', hrest, hrest, rfl⟩ own
  · have hresult : Fields.get? resultKey rest = Fields.get? resultKey (rest.merge fs) :=
      (Fields.get?_merge_of_not_mem hname).symm
    exact object_agrees ⟨ha, hplain, hkey, hkey, hrest, hrest.merge hfs, hresult⟩
  · have hresult := (Fields.get?_of_without hothers resultKey (by decide)).symm
    exact prompt_agrees ⟨ha, hplain, hkey, hkey, hrest, hrest', hresult⟩ hbare hs hprompt hothers

/-- A tap on a button, with a hint and a name for its result. -/
theorem spellings_agree_tap :
    let rest : Object := [("name", .str "tapped"), ("deepThink", .bool true)]
    let fs : Object := [("prompt", .str "button"), ("deepThink", .bool false)]
    resolve tapping (("aiTap", .str "button") :: rest) =
        resolve tapping (("Tap", .str "button") :: rest) ∧
      resolve tapping (("aiTap", .obj fs) :: rest) =
        resolve tapping (("aiTap", .null) :: Fields.merge rest fs) ∧
      resolve tapping (("Tap", .str "button") :: rest) =
        resolve tapping (("Tap", .null) :: ("prompt", .str "button") :: rest) ∧
      Alike (Step.Upto Value.Reordered) (resolve tapping (("Tap", .str "button") :: rest))
        (resolve tapping (("prompt", .str "button") :: ("Tap", .null) :: rest)) ∧
      ∃ s, (resolve tapping (("aiTap", .obj fs) :: rest)).run.value = .ok s := by
  intro rest fs
  obtain ⟨hkeys, hobject, hprompt⟩ :=
    spellings_agree tapping (List.mem_singleton_self (Action.standard .tap)) (by decide) rest
      (by decide)
  have halias := hkeys "aiTap" (.str "button") rfl
  have hbeside := hobject "aiTap" fs (by decide) (by decide) (by decide)
  have htarget := hprompt rfl "Tap" "button" (("prompt", .str "button") :: rest) (by decide)
    (by decide) (by decide) rfl rfl
  have hswapped := htarget.anyOrder (("Tap", .str "button") :: rest)
    (("prompt", .str "button") :: ("Tap", .null) :: rest) (.refl (by decide))
    ⟨by decide, .swap _ _ _⟩
  refine ⟨halias.written (by decide) (by decide), hbeside.written (by decide) (by decide),
    htarget.written (by decide) (by decide), hswapped.reordered ?_, _, rfl⟩
  rintro _ rfl
  exact Action.onlyStringifies_standard .tap

end Step

end Runbook
