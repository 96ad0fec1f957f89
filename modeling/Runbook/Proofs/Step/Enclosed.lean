/-
Parameters under the key of their action.

A step may have nothing but an object of parameters under a key of the action. The action is not
called with that object as it stands. The step and the object are put together first, and out of
the whole the keys of the action and of the result are dropped again. So a parameter with the name
of such a key does not arrive (`get?_carried`). As long as no entry of the object is named so, the
step is the same as a call with the object (`resolve_enclosed`). For an action that applies no
function to its parameters together, it is enough that none of the declared ones is named so, since
nothing else counts.
-/
import Runbook.Proofs.Schema.Declared
import Runbook.Proofs.Step.Canonical
import Runbook.Proofs.Step.Spellings

namespace Runbook

open Item
open Fields (get? Distinct)

/-- An action reads its declared parameters and no others, as long as it applies no function to all
of them together. -/
theorem Action.normalize_congr {a : Action} {s : Schema} {fields : List Field} {fs gs : Object}
    (hs : a.schema = some s) (hsteps : s.OnlyStringifies) (hfields : s.objectFields? = some fields)
    (h : ∀ f ∈ fields, get? f.name fs = get? f.name gs) :
    a.normalize (.obj fs) = a.normalize (.obj gs) := by
  simp only [normalize, hs, Schema.normalize_congr hsteps hfields h]

namespace Step

variable {registry : Registry} {a : Action} {key : String} {fs : Object} {v : Value}

/-! ## Steps with one entry -/

/-- The parameters of a call, under the name of its action. -/
def asItem (action : String) (param : Value) : Item := [(action, param)]

theorem get?_asItem {key action : String} :
    get? key (asItem action v) = if action = key then some v else none := rfl

theorem contains_asItem {key action : String} : Fields.contains key (asItem action v) = true ↔
    key = action := by
  simp only [Fields.contains, asItem, List.any_cons, List.any_nil, Bool.or_false, beq_iff_eq]
  exact eq_comm

theorem matching_asItem (ha : a ∈ registry.actions) (hkey : key ∈ a.keys) (v : Value) :
    registry.matching (asItem key v) = [(a, key)] :=
  Registry.matching_eq ha hkey fun _ _ _ _ => contains_asItem

theorem ruleOf?_asItem (ha : a ∈ registry.actions) (hkey : key ∈ a.keys)
    (hform : key ∉ Rule.intrinsicKeys) (v : Value) :
    ruleOf? registry (asItem key v) = some .action := by
  refine ruleOf?_eq_some ?_ fun r hr => ?_
  · rw [Rule.applies, matching_asItem ha hkey]
    rfl
  · have hr' : r ≠ .action := fun heq => Rule.action.action_not_mem_above (heq ▸ hr)
    rw [r.applies_eq_hasAny hr', Bool.eq_false_iff, ne_eq, hasAny, List.any_eq_true]
    rintro ⟨k, hk, hcontains⟩
    exact hform (contains_asItem.mp hcontains ▸ Rule.mem_intrinsicKeys hr hk)

/-! ## What is given to the action -/

/-- A step with parameters under a key, and the parameters beside it. -/
def enclosing (key : String) (fs : Object) : Object := Fields.merge (asItem key (.obj fs)) fs

theorem get?_enclosing (hd : Distinct fs) (k : String) :
    get? k (enclosing key fs) = (get? k fs).or (if key = k then some (.obj fs) else none) :=
  Fields.get?_merge hd

/-- A step with parameters under a key of an action is a call of the action. -/
theorem resolve_enclosing (ha : a ∈ registry.actions) (hkey : key ∈ a.keys)
    (hform : key ∉ Rule.intrinsicKeys) (fs : Object) :
    resolve registry (asItem key (.obj fs)) = (do
      let command ← callWith a none (enclosing key fs)
      pure ⟨.action, none, command⟩) := by
  have hname : resultName? (asItem key (.obj fs)) = none := by
    rw [resultName?, get?_asItem]
    by_cases h : key = resultKey
    · rw [if_pos h]
    · rw [if_neg h]
  have hbuild : buildAction registry (asItem key (.obj fs)) =
      callWith a none (enclosing key fs) := by
    rw [buildAction, matching_asItem ha hkey]
    dsimp only
    rw [buildCall_eq, get?_asItem, if_pos rfl]
    rfl
  rw [resolve_of_ruleOf? (ruleOf?_asItem ha hkey hform _), hname]
  show (buildAction registry (asItem key (.obj fs)) >>= _) = _
  rw [hbuild]

/-! ## Parameters that arrive -/

/-- The step that a call of an action comes to. -/
def callStep (a : Action) (param : Value) : Checked Step :=
  match a.normalize param with
  | .ok v => pure ⟨.action, none, .ask (.call a.name v)⟩
  | .error e => throw (.validation e)

/-- Whether a key of a step is read as its target, in the newer or in the older form. -/
def IsTargetKey (key : String) : Prop := key = "prompt" ∨ key = "locate"

instance (key : String) : Decidable (IsTargetKey key) :=
  inferInstanceAs (Decidable (_ ∨ _))

/-- What the action is called with if the step has `fs` under `key` and nothing else. The whole
object is also the target if the key is read as one. -/
def carried (a : Action) (key : String) (fs : Object) : Object :=
  let rest := Fields.without (ownKeys a) fs
  if IsTargetKey key then
    Fields.insert "locate" (Locator.toValue { prompt := .structured fs }) rest
  else rest

/-- A parameter arrives unless it has the name of a key of the action or of the result. -/
theorem get?_carried {k : String} (hk : IsTargetKey key → k ≠ "locate") :
    get? k (carried a key fs) = if k ∈ ownKeys a then none else get? k fs := by
  unfold carried
  dsimp only
  split
  · next htarget =>
    rw [Fields.get?_insert, if_neg (Ne.symm (hk htarget)), Fields.get?_without]
  · rw [Fields.get?_without]

theorem callOf_congr {s : Schema} {fields : List Field} {gs : Object} (hs : a.schema = some s)
    (hsteps : s.OnlyStringifies) (hfields : s.objectFields? = some fields)
    (h : ∀ f ∈ fields, get? f.name fs = get? f.name gs) :
    callOf a (.obj fs) = callOf a (.obj gs) := by
  simp only [callOf, Action.normalize_congr hs hsteps hfields h]

theorem callStep_eq (a : Action) (param : Value) : callStep a param = (do
    let command ← callOf a param
    pure ⟨.action, none, command⟩) := by
  unfold callStep callOf
  cases a.normalize param <;> rfl

/-- The parameters name no target, so there is one only if the key is read as one. -/
theorem build_enclosing (hd : Distinct fs)
    (hfs : ∀ k ∈ Fields.keys fs, k ∉ "locate" :: Locator.keys) :
    Locator.build none (enclosing key fs) =
      pure (if IsTargetKey key then some { prompt := .structured fs } else none) := by
  have hget : ∀ k ∈ "locate" :: Locator.keys,
      get? k (enclosing key fs) = if key = k then some (.obj fs) else none := by
    intro k hk
    rw [get?_enclosing hd, Fields.get?_eq_none_iff.mpr fun hmem => hfs k hmem hk, Option.none_or]
  simp only [Locator.build_none, Locator.promptAt?, Locator.described, Locator.flagAt,
    hget "prompt" (by decide), hget "locate" (by decide), hget "deepThink" (by decide),
    hget "cacheable" (by decide), hget "xpath" (by decide)]
  by_cases hprompt : key = "prompt"
  · subst hprompt
    rfl
  by_cases hlocate : key = "locate"
  · subst hlocate
    rfl
  · simp [IsTargetKey, hprompt, hlocate]

/-- What is left of the step for the action, when some keys are used up by its target. -/
theorem without_enclosing (hd : Distinct fs) (hkey : key ∈ ownKeys a) {used : List String}
    (hused : ∀ k ∈ Fields.keys fs, k ∉ "locate" :: used) :
    Fields.without ("locate" :: used ++ ownKeys a) (enclosing key fs) =
      Fields.without (ownKeys a) fs := by
  have hmem : key ∈ "locate" :: used ++ ownKeys a := List.mem_append_right _ hkey
  have hentry : Fields.without ("locate" :: used ++ ownKeys a) (asItem key (.obj fs)) =
      Fields.without ("locate" :: used ++ ownKeys a) [] :=
    Fields.without_cons_of_mem hmem _ _
  rw [enclosing, Fields.without_merge_congr hentry, Fields.merge_nil hd, Fields.without_append,
    Fields.without_of_not_mem hused]

/-- Without targets of its own an action is called with its parameters as they are left. -/
theorem callWith_enclosing {s : Schema} {fields : List Field} (hs : a.schema = some s)
    (hfields : s.objectFields? = some fields) (hplain : ∀ f ∈ fields, f.locatable = false)
    (hkey : key ∈ ownKeys a) (hd : Distinct fs)
    (hfs : ∀ k ∈ Fields.keys fs, k ∉ "locate" :: Locator.keys) :
    callWith a none (enclosing key fs) = callOf a (.obj (carried a key fs)) := by
  have hnone : fields.filter Field.locatable = [] :=
    List.filter_eq_nil_iff.mpr fun f hf => by simp [hplain f hf]
  have hnames : s.locatorNames.filter (· != "locate") = [] := by
    rw [Schema.locatorNames, hfields, Option.getD_some, hnone]
    rfl
  have hused : ∀ used : List String, (∀ k ∈ used, k ∈ Locator.keys) →
      ∀ k ∈ Fields.keys fs, k ∉ "locate" :: used := by
    intro used hkeys k hmem hk
    exact hfs k hmem ((List.cons_subset_cons _ hkeys) hk)
  unfold callWith Locator.split
  rw [build_enclosing hd hfs, hs]
  dsimp only
  rw [hnames]
  unfold carried
  by_cases htarget : IsTargetKey key
  · rw [if_pos htarget, if_pos htarget,
      ← without_enclosing hd hkey (hused Locator.keys fun _ hk => hk)]
    rfl
  · rw [if_neg htarget, if_neg htarget,
      ← without_enclosing hd hkey (hused [] fun _ hk => absurd hk List.not_mem_nil)]
    rfl

/-- **Parameters under the key of their action.** A step that has nothing but an object under a
key of an action, with parameters that are no targets, is a call of the action with what is carried
over: the object without the entries that have the name of a key of the action or of the result.
It is the same as a call with the object if none of its entries has such a name, and the key is not
read as a target. If the action applies no function but the one that writes scalars out, it is
enough that this holds of the declared parameters. -/
theorem resolve_enclosed (registry : Registry) {a : Action} {s : Schema} {fields : List Field}
    {key : String} {fs : Object} (ha : a ∈ registry.actions) (hs : a.schema = some s)
    (hfields : s.objectFields? = some fields) (hplain : ∀ f ∈ fields, f.locatable = false)
    (hkey : key ∈ a.keys) (hform : key ∉ Rule.intrinsicKeys) (hd : Distinct fs)
    (hfs : ∀ k ∈ Fields.keys fs, k ∉ "locate" :: Locator.keys) :
    resolve registry (asItem key (.obj fs)) = callStep a (.obj (carried a key fs)) ∧
      (∀ k, (IsTargetKey key → k ≠ "locate") →
        get? k (carried a key fs) = if k ∈ ownKeys a then none else get? k fs) ∧
      ((∀ k ∈ Fields.keys fs, k ∉ ownKeys a) → ¬ IsTargetKey key →
        resolve registry (asItem key (.obj fs)) = callStep a (.obj fs)) ∧
      (s.OnlyStringifies → (∀ f ∈ fields, f.name ∈ Fields.keys fs → f.name ∉ ownKeys a) →
        (IsTargetKey key → ∀ f ∈ fields, f.name ≠ "locate") →
          resolve registry (asItem key (.obj fs)) = callStep a (.obj fs)) := by
  have hown : key ∈ ownKeys a := by
    simp only [Action.keys, List.mem_append, List.mem_singleton] at hkey
    rcases hkey with hkey | rfl
    · exact List.mem_append_right _ hkey
    · exact List.mem_cons_self
  have hcarried : resolve registry (asItem key (.obj fs)) =
      callStep a (.obj (carried a key fs)) := by
    rw [resolve_enclosing ha hkey hform, callWith_enclosing hs hfields hplain hown hd hfs,
      callStep_eq]
  refine ⟨hcarried, fun k hk => get?_carried hk, fun hnames htarget => ?_,
    fun hsteps hnames htarget => ?_⟩
  · rw [hcarried, carried, if_neg htarget, Fields.without_of_not_mem hnames]
  · rw [hcarried, callStep_eq, callStep_eq, callOf_congr hs hsteps hfields fun f hf => ?_]
    rw [get?_carried fun h => htarget h f hf]
    split
    · next hmem =>
      exact (Fields.get?_eq_none_iff.mpr fun hgiven => hnames f hf hgiven hmem).symm
    · rfl

/-- An action whose parameter has the name that the result of a step goes by. -/
def greeting : Action :=
  ⟨"Greet", none, "say hello", some (.object [.plain "name" .string]), .custom⟩

def waving : Action :=
  ⟨"Wave", some "wave", "wave a hand", some (.object [.plain "times" .integer]), .custom⟩

def greeter : Registry where
  actions := [greeting, waving]
  separate := by decide

/-- The name is lost on the way to one action, and the number arrives at the other, with a name
beside it too. -/
theorem resolve_enclosed_greet :
    let bob : Object := [("name", .str "Bob")]
    let twice : Object := [("times", .ofNat 2)]
    let named : Object := ("name", .str "Bob") :: twice
    resolve greeter [("Greet", .obj bob)] = throw (.validation ⟨"Greet.name", .absent⟩) ∧
      greeting.normalize (.obj bob) = .ok (.obj bob) ∧
      resolve greeter [("wave", .obj twice)] =
        pure ⟨.action, none, .ask (.call "Wave" (.obj twice))⟩ ∧
      waving.normalize (.obj twice) = .ok (.obj twice) ∧
      resolve greeter [("wave", .obj named)] =
        pure ⟨.action, none, .ask (.call "Wave" (.obj twice))⟩ ∧
      waving.normalize (.obj named) = .ok (.obj twice) := by
  intro bob twice named
  have hgreeting : greeting ∈ greeter.actions := by simp [greeter]
  have hwaving : waving ∈ greeter.actions := by simp [greeter]
  have hwave : "wave" ∈ waving.keys := List.mem_cons_self
  have hsteps : (Schema.object [.plain "times" .integer]).OnlyStringifies := ⟨trivial, trivial⟩
  have hbob : Distinct bob := by decide
  have htwice : Distinct twice := by decide
  have hnamed : Distinct named := by decide
  have hlost : resolve greeter (asItem "Greet" (.obj bob)) =
      callStep greeting (.obj (carried greeting "Greet" bob)) :=
    (resolve_enclosed greeter hgreeting rfl rfl (by decide) (by decide) (by decide) hbob
      (by decide)).1
  obtain ⟨-, -, hsame, -⟩ :=
    resolve_enclosed greeter hwaving rfl rfl (by decide) hwave (by decide) htwice (by decide)
  obtain ⟨-, -, -, hdeclared⟩ :=
    resolve_enclosed greeter hwaving rfl rfl (by decide) hwave (by decide) hnamed (by decide)
  exact ⟨hlost, rfl, hsame (by decide) (by decide), rfl,
    hdeclared hsteps (by decide) (by decide), rfl⟩

end Step

end Runbook
