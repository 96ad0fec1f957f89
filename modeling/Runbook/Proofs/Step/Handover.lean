/-
What a step hands over.

Some keys of an item say which operation is meant and what it works on, or name its result, and
they are used up when the command is built. Every other entry is handed over as it is and in its
place (`Leaves`). An operation of the agent has these entries for its options. An action that no
schema restricts has them for its parameters, once what is under its key has been put together
with what stands beside it and a target has been made of the entries that describe one
(`handed_over`).
-/
import Runbook.Proofs.Step.Canonical
import Runbook.Proofs.Step.Dispatch
import Runbook.Proofs.Step.Spellings

namespace Runbook

open Item
open Checked (Returns)
open Fields (get? keys Distinct)

/-! ## Entries that are left -/

namespace Fields

variable {α : Type} {names : List String} {fs left : Fields α} {key : String}

/-- What is left without some names: every entry under another key, as it is and in its place, and
no entry under one of them. -/
structure Leaves (names : List String) (fs left : Fields α) : Prop where
  inPlace : left.Sublist fs
  none_leaked : ∀ key ∈ names, key ∉ keys left
  none_lost : ∀ e ∈ fs, e.1 ∉ names → e ∈ left

theorem leaves_without (names : List String) (fs : Fields α) :
    Leaves names fs (without names fs) := by
  refine ⟨List.filter_sublist, fun key hkey hmem => ?_, fun e he hname => ?_⟩
  · obtain ⟨e, he, rfl⟩ := List.mem_map.mp hmem
    have hkept := (List.mem_filter.mp he).2
    simp [hkey] at hkept
  · exact List.mem_filter.mpr ⟨he, by simpa using hname⟩

end Fields

open Fields (Leaves leaves_without)

/-! ## Options of an operation -/

/-- The options of an operation that a form with options asks for. -/
def Operation.optionsFor? : Rule → Operation → Option Object
  | .act, .act _ options => some options
  | .assertion, .assertion _ _ options => some options
  | .extract, .extract _ _ options => some options
  | .waitFor, .waitFor _ options => some options
  | _, _ => none

namespace Rule

/-- The keys that an operation with options uses up. Of several keys that ask for data it is the
one that is answered. -/
def spent? (item : Item) : Rule → Option (List String)
  | .act => some ["aiAct", "aiAction", "ai"]
  | .assertion => some ["aiAssert", "errorMessage"]
  | .extract => (extraction? item).map fun e => [e.key]
  | .waitFor => some ["aiWaitFor"]
  | _ => none

/-- The options made of what is left. The time limit of a wait is there under a second key. -/
def optionsOf (item : Item) (left : Object) : Rule → Object
  | .waitFor =>
    match get? "timeout" item with
    | none | some .null => left
    | some limit => Fields.insert "timeoutMs" limit left
  | _ => left

end Rule

/-- A command whose options are made of what an item of the form leaves without the keys that are
spent. -/
def Command.HandsOver (rule : Rule) (item : Item) (c : Command) : Prop :=
  ∃ spent operation left, rule.spent? item = some spent ∧ c = .ask operation ∧
    Leaves (resultKey :: spent) item left ∧
    operation.optionsFor? rule = some (rule.optionsOf item left)

namespace Step

variable {registry : Registry} {item : Item} {a : Action} {key name : String} {own : Value}
  {p : Prompt}

theorem leaves_options (item : Item) (spent : List String) :
    Leaves (resultKey :: spent) item (options item spent) :=
  leaves_without _ item

theorem buildAct_handsOver : Returns (Command.HandsOver .act item) (buildAct item) := by
  unfold buildAct
  cases actKeys.findSome? (textAt? item) with
  | none => exact .throw _
  | some prompt => exact .pure ⟨_, _, _, rfl, rfl, leaves_options item _, rfl⟩

theorem buildAssertion_handsOver :
    Returns (Command.HandsOver .assertion item) (buildAssertion item) :=
  .after _ fun _ => .pure ⟨_, _, _, rfl, rfl, leaves_options item _, rfl⟩

theorem buildExtract_handsOver : Returns (Command.HandsOver .extract item) (buildExtract item) := by
  unfold buildExtract
  cases he : extraction? item with
  | none => exact .throw _
  | some e =>
    have hspent : Rule.extract.spent? item = some [e.key] := by
      rw [Rule.spent?, he, Option.map_some]
    dsimp only
    split
    · exact .pure ⟨_, _, _, hspent, rfl, leaves_options item _, rfl⟩
    · exact .throw _

theorem buildWaitFor_handsOver : Returns (Command.HandsOver .waitFor item) (buildWaitFor item) := by
  refine .after _ fun prompt => ?_
  have hleft := leaves_options item ["aiWaitFor"]
  have hgiven : ∀ options, Rule.waitFor.optionsOf item (item.options ["aiWaitFor"]) = options →
      Returns (Command.HandsOver .waitFor item) (pure (.ask (.waitFor prompt options))) :=
    fun _ hoptions => .pure ⟨_, _, _, rfl, rfl, hleft, congrArg some hoptions.symm⟩
  cases hlimit : get? "timeout" item with
  | none => exact hgiven _ (by rw [Rule.optionsOf, hlimit])
  | some limit => cases limit <;> exact hgiven _ (by rw [Rule.optionsOf, hlimit])

theorem build_handsOver {rule : Rule} (h : rule ∈ [.act, .assertion, .extract, .waitFor]) :
    Returns (Command.HandsOver rule item) (build registry item rule) := by
  simp only [List.mem_cons, List.not_mem_nil, or_false] at h
  rcases h with rfl | rfl | rfl | rfl
  · exact buildAct_handsOver
  · exact buildAssertion_handsOver
  · exact buildExtract_handsOver
  · exact buildWaitFor_handsOver

/-! ## Parameters of an action -/

/-- What an item gives its action under a name, with `own` under the key of the action. An object
there comes before what stands beside it, and a text or a number there counts as the prompt. -/
def offered (own : Value) (item : Item) (name : String) : Option Value :=
  match own with
  | .obj fs => (get? name fs).or (get? name item)
  | own =>
    if name = "prompt" then ((Prompt.ofValue? own).map Prompt.toValue).or (get? name item)
    else get? name item

theorem get?_ownOptions (hown : ∀ fs, own = .obj fs → Distinct fs) (item : Item) (name : String) :
    get? name (ownOptions own item) = offered own item name := by
  have hprompt : ∀ prompt : Option Prompt,
      get? name (prompt.elim item fun p => Fields.insert "prompt" p.toValue item) =
        if name = "prompt" then (prompt.map Prompt.toValue).or (get? name item)
        else get? name item := by
    intro prompt
    cases prompt with
    | none => simp
    | some p =>
      rw [Option.elim_some, Fields.get?_insert]
      by_cases hname : name = "prompt"
      · rw [if_pos hname.symm, if_pos hname, Option.map_some, Option.some_or]
      · rw [if_neg (Ne.symm hname), if_neg hname]
  have hplain : (∀ fs, own ≠ .obj fs) → ownOptions own item =
      (Prompt.ofValue? own).elim item fun p => Fields.insert "prompt" p.toValue item := by
    intro hne
    unfold ownOptions
    cases own with
    | obj fs => exact absurd rfl (hne fs)
    | _ =>
      simp only [ownPrompt]
      split
      · next hp => rw [hp]; rfl
      · next hp => rw [hp]; rfl
  cases own with
  | obj fs => exact Fields.get?_merge (hown fs rfl)
  | _ => rw [hplain (by simp), hprompt]; rfl

/-- The prompt under the key of an action is a text. -/
theorem text_of_ownPrompt (h : ownPrompt own = some p) : ∃ s, s ≠ "" ∧ p = .text s := by
  cases own with
  | str s =>
    by_cases hs : s.isEmpty
    · simp [ownPrompt, Prompt.ofValue?, hs] at h
    · simp only [ownPrompt, Prompt.ofValue?, hs, Bool.false_eq_true, if_false,
        Option.some.injEq] at h
      exact ⟨s, by simpa using hs, h.symm⟩
  | num n => exact ⟨n.text, n.text_ne_empty, (Option.some.inj h).symm⟩
  | _ => cases h

/-- A prompt under the key of an action stands among its options. -/
theorem promptAt?_ownOptions (h : ownPrompt own = some p) (item : Item) :
    Locator.promptAt? "prompt" (ownOptions own item) = some p := by
  obtain ⟨s, hs, rfl⟩ := text_of_ownPrompt h
  simp [Locator.promptAt?, ownOptions, h, Fields.get?_insert, Prompt.toValue, Prompt.ofValue?, hs]

/-- So it is not given twice. -/
theorem build_ownOptions (own : Value) (item : Item) :
    Locator.build (ownPrompt own) (ownOptions own item) =
      Locator.build none (ownOptions own item) := by
  cases hown : ownPrompt own with
  | none => rfl
  | some p =>
    refine Locator.build_of_promptAt? (promptAt?_ownOptions hown item) ?_
    obtain ⟨s, -, rfl⟩ := text_of_ownPrompt hown
    simp [Prompt.sameAs, Prompt.toValue, Value.sameAs]

/-- The target that options describe, if they describe one. -/
def described? (options : Object) : Option Locator :=
  ((Locator.promptAt? "prompt" options).or (Locator.promptAt? "locate" options)).map
    (Locator.described · options)

/-- An action without a schema is called with all that is left of its options. -/
theorem callWith_unrestricted (ha : a.schema = none) (own : Value) (item : Item) :
    let options := ownOptions own item
    let used := if (described? options).isSome then Locator.keys else []
    ∃ left, Leaves ("locate" :: used ++ ownKeys a) options left ∧
      callWith a (ownPrompt own) options = pure (.ask (.call a.name (.obj
        (left ++ (described? options).toList.map fun l => ("locate", l.toValue))))) := by
  intro options used
  have hleft := leaves_without ("locate" :: used ++ ownKeys a) options
  refine ⟨_, hleft, ?_⟩
  have hbuild : Locator.build (ownPrompt own) options = pure (described? options) := by
    rw [build_ownOptions, Locator.build_none]
    rfl
  have hcall : ∀ param, callOf a (.obj param) = pure (.ask (.call a.name (.obj param))) := by
    intro param
    simp only [callOf, Action.normalize, ha]
  have hlocate := hleft.none_leaked "locate" (by simp)
  unfold callWith Locator.split
  rw [hbuild, ha]
  cases hl : described? options with
  | none =>
    show callOf a (.obj (Fields.without ("locate" :: [] ++ ownKeys a) options)) = _
    simp [hcall, used, hl]
  | some l =>
    simp only [used, hl, Option.isSome_some, if_true] at hlocate
    show callOf a (.obj (Fields.insert "locate" l.toValue
      (Fields.without ("locate" :: Locator.keys ++ ownKeys a) options))) = _
    rw [hcall, Fields.insert_of_not_mem hlocate]
    simp [used, hl]

/-- **What a step hands over.** The options of an act, an assertion, a question or a wait are the
entries of the item that are neither the name of the result nor spent on the form, as they are and
in their places; a time limit of a wait, if it is not `null`, is there under a second key too. The
call of an action without a schema has for its parameters what the item offers, without the name of
the result, the keys of the action and `locate`; if the rest describes a target, that is added under
`locate` and the entries that describe targets are left out as well. Nothing else is left out. -/
theorem handed_over (registry : Registry) {item : Item} (hd : Distinct item) :
    (∀ s, (resolve registry item).run.value = .ok s →
      s.rule ∈ [.act, .assertion, .extract, .waitFor] → s.command.HandsOver s.rule item) ∧
    ∀ a key own, ruleOf? registry item = some .action → registry.matching item = [(a, key)] →
      get? key item = some own → (∀ fs, own = .obj fs → Distinct fs) → a.schema = none →
        ∃ options left, Distinct options ∧ (∀ name, get? name options = offered own item name) ∧
          Leaves ("locate" :: (if (described? options).isSome then Locator.keys else []) ++
            [a.name, resultKey] ++ a.interfaceAlias.toList) options left ∧
          resolve registry item = pure ⟨.action, resultName? item, .ask (.call a.name (.obj
            (left ++ (described? options).toList.map fun l => ("locate", l.toValue))))⟩ := by
  constructor
  · have hresolve : Returns (fun s => s.rule ∈ [.act, .assertion, .extract, .waitFor] →
        s.command.HandsOver s.rule item) (resolve registry item) := by
      unfold resolve
      split
      · exact .throw _
      · next rule _ =>
        exact .bind (P := fun command => rule ∈ [.act, .assertion, .extract, .waitFor] →
          command.HandsOver rule item) (fun command hcommand hform =>
            build_handsOver hform command hcommand) fun command hcommand => .pure hcommand
    exact fun s hs => hresolve s hs
  · intro a key own hrule hmatching hget hown ha
    obtain ⟨left, hleft, hcall⟩ := callWith_unrestricted ha own item
    refine ⟨ownOptions own item, left, distinct_ownOptions own hd, get?_ownOptions hown item,
      by simpa only [ownKeys, List.append_assoc] using hleft, ?_⟩
    have hbare : a.acceptsBareString = false := by rw [Action.acceptsBareString, ha]
    rw [resolve_of_ruleOf? hrule, build_of_matching hmatching hbare hget, hcall]
    rfl

/-- An action that takes whatever it is given. -/
def ringing : Action := ⟨"Ring", some "ring", "ring a bell", none, .custom⟩

def belfry : Registry where
  actions := [ringing]
  separate := by decide

/-- A wait with a time limit, and a bell that is rung twice, by a name that says which. -/
theorem handed_over_bell :
    let wait : Item := [("timeout", .ofNat 3000), ("aiWaitFor", .str "quiet"), ("calm", .null)]
    let ring : Item := [("times", .ofNat 1), ("deepThink", .bool true), ("name", .str "rung"),
      ("ring", .obj [("prompt", .str "door"), ("times", .ofNat 2)])]
    let door : Value :=
      .obj [("prompt", .str "door"), ("deepThink", .bool true), ("cacheable", .bool true)]
    Distinct wait ∧ Distinct ring ∧
      (∃ operation, (resolve belfry wait).run.value = .ok ⟨.waitFor, none, .ask operation⟩ ∧
        operation.optionsFor? .waitFor =
          some [("timeout", .ofNat 3000), ("calm", .null), ("timeoutMs", .ofNat 3000)] ∧
        Command.HandsOver .waitFor wait (.ask operation)) ∧
      ∃ options left, Leaves ("locate" :: Locator.keys ++ ["Ring", "name", "ring"]) options left ∧
        left = [("times", .ofNat 2)] ∧ resolve belfry ring = pure ⟨.action, some "rung",
          .ask (.call "Ring" (.obj (left ++ [("locate", door)])))⟩ := by
  intro wait ring door
  have hwait : Distinct wait := by decide
  have hring : Distinct ring := by decide
  obtain ⟨hoptions, -⟩ := handed_over belfry hwait
  obtain ⟨-, hparameters⟩ := handed_over belfry hring
  obtain ⟨options, left, -, hoffered, hleft, hresolve⟩ := hparameters ringing "ring" _ rfl rfl rfl
    (fun fs hfs => by cases hfs; decide) rfl
  have hdescribed : described? options =
      some { prompt := .text "door", deepThink := true } := by
    simp [described?, Locator.promptAt?, Locator.described, Locator.flagAt, hoffered, offered, ring,
      get?, Prompt.ofValue?, Value.asBool?]
  rw [hdescribed] at hleft hresolve
  have hends : resolve belfry ring = pure ⟨.action, some "rung",
      .ask (.call "Ring" (.obj ([("times", .ofNat 2)] ++ [("locate", door)])))⟩ := rfl
  have hsame : left = [("times", .ofNat 2)] := by
    have hstep := hresolve.symm.trans hends
    injection hstep with _ hstep
    injection hstep with hstep
    injection hstep with _ _ hcommand
    injection hcommand with hcommand
    injection hcommand with _ hcommand
    injection hcommand with hcommand
    exact List.append_cancel_right hcommand
  exact ⟨hwait, hring, ⟨_, rfl, rfl, hoptions _ rfl (by decide)⟩, options, left, hleft, hsame,
    hresolve⟩

end Step

end Runbook
