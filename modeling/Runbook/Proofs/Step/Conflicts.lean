/-
Two prompts for one target.

A step may name its target by a key of its form and give a prompt beside it. The target is then
the former, and it is worth a warning if the latter is not the same. Steps for text entry, key
presses and scrolling do raise it. A step that names its action by the key of the action does not,
whatever stands beside it (`build_action_warnings`): its prompt is put where the other one stands
before the two are compared.
-/
import Runbook.Proofs.Decode
import Runbook.Proofs.Step.Forms
import Runbook.Proofs.Step.Handover
import Runbook.Proofs.Step.Replay
import Runbook.Proofs.Value

namespace Runbook

open Item
open Fields (get? keys Distinct)

/-! ## When prompts are the same -/

namespace Prompt

/-- The prompt is a text, or no key of it has two entries. -/
def HasDistinctKeys : Prompt → Prop
  | .text _ => True
  | .structured fs => Distinct fs

/-- The same text, or the same under every key, in whatever order the entries stand. -/
inductive Same : Prompt → Prompt → Prop
  | text (s : String) : Same (.text s) (.text s)
  | structured {fs gs : Object}
      (h : ∀ key, Option.Rel (fun v w => v.sameAs w = true) (get? key fs) (get? key gs)) :
      Same (.structured fs) (.structured gs)

theorem sameAs_iff {p q : Prompt} (hp : p.HasDistinctKeys) (hq : q.HasDistinctKeys) :
    p.sameAs q = true ↔ p.Same q := by
  cases p with
  | text s =>
    cases q with
    | text t =>
      have hsame : sameAs (.text s) (.text t) = true ↔ s = t := by
        simp [sameAs, toValue, Value.sameAs]
      exact hsame.trans ⟨fun h => h ▸ .text s, fun h => by cases h; rfl⟩
    | structured gs => exact iff_of_false Bool.false_ne_true fun h => by cases h
  | structured fs =>
    cases q with
    | text t => exact iff_of_false Bool.false_ne_true fun h => by cases h
    | structured gs =>
      exact (Value.sameAs_obj hp hq).trans ⟨.structured, fun h => by cases h; assumption⟩

end Prompt

/-! ## Targets of calls -/

/-- The prompt of the target that an item names by the keys of its form. For an action without a
form that is a text or a number under its key, unless the action takes a text for itself. -/
def Rule.aim? (registry : Registry) (item : Item) : Rule → Option Prompt
  | .action =>
    match registry.matching item with
    | [(a, key)] => if a.acceptsBareString then none else (get? key item).bind Step.ownPrompt
    | _ => none
  | rule => rule.calleeKey?.bind fun _ => (rule.target? item).bind Prompt.ofValue?

namespace Action

variable {a : Action} {param : Object} {v w : Value}

/-- Whether an action takes a target under `locate`: it has a locator there, or nothing restricts
its parameters. -/
def TakesTarget (a : Action) : Prop := ∀ s, a.schema = some s → "locate" ∈ s.locatorNames

/-- What the action receives is what the check of its schema makes of the parameters, with the
targets put back. -/
theorem normalize_ok {s : Schema} (hs : a.schema = some s)
    (h : a.normalize (.obj param) = .ok w) : ∃ u,
      s.parse (some (.obj (Schema.substitute (Schema.targets s.locatorNames param) param))) "" =
          .ok u ∧
        w = Schema.restore (Schema.targets s.locatorNames param) (Value.ofOption u) := by
  have hok : s.normalize (.obj param) = .ok w := by
    unfold normalize at h
    rw [hs] at h
    dsimp only at h
    split at h
    · next u hu => rw [hu, Except.ok.inj h]
    · cases h
  rw [Schema.normalize_obj] at hok
  obtain ⟨u, hparse, rfl⟩ := map_ok hok
  exact ⟨u, hparse, rfl⟩

/-- A target is handed on as it is, if anything is left to hold it. -/
theorem locate_normalize (ha : a.TakesTarget) (hget : get? "locate" param = some v)
    (hnull : v ≠ .null) {fs : Object} (h : a.normalize (.obj param) = .ok (.obj fs)) :
    get? "locate" fs = some v := by
  cases hs : a.schema with
  | none =>
    rw [normalize, hs] at h
    cases h
    exact hget
  | some s =>
    obtain ⟨u, -, hrestored⟩ := normalize_ok hs h
    generalize Value.ofOption u = out at hrestored
    cases out with
    | obj gs =>
      cases hrestored
      exact Schema.get?_restored_of_target gs (ha s hs) hget hnull
    | _ => cases hrestored

/-- An action that applies no function to all of its parameters together receives an object. -/
theorem exists_obj_of_normalize (ha : a.OnlyStringifies) (hd : Distinct param)
    (h : a.normalize (.obj param) = .ok w) : ∃ fs, w = .obj fs := by
  cases hs : a.schema with
  | none =>
    rw [normalize, hs] at h
    cases h
    exact ⟨_, rfl⟩
  | some s =>
    obtain ⟨u, hparse, rfl⟩ := normalize_ok hs h
    obtain ⟨gs, rfl, -⟩ := Schema.parse_distinct (ha s hs) (Schema.distinct_substitute hd) hparse
    exact ⟨_, rfl⟩

end Action

namespace Step

variable {registry : Registry} {item : Item} {rule : Rule} {a : Action} {p q : Prompt}
  {options : Object}

/-- Once the locator is there without a warning, what is left is the check of the parameters. -/
theorem callWith_of_build {prompt : Option Prompt} {locator : Option Locator} (a : Action)
    (h : Locator.build prompt options = pure locator) :
    ∃ param, (Distinct options → Distinct param) ∧ callWith a prompt options =
      callOf a (.obj (locator.elim param fun l => Fields.insert "locate" l.toValue param)) := by
  let rest := Fields.without ("locate" :: (if locator.isSome then Locator.keys else []) ++
    ownKeys a) options
  have hsplit : ∃ names, callWith a prompt options = (do
      let param ← (liftM (canonicalTargets names rest) : Checked Object)
      callOf a (.obj (locator.elim param fun l => Fields.insert "locate" l.toValue param))) := by
    unfold callWith Locator.split
    rw [h]
    cases locator <;> exact ⟨_, rfl⟩
  obtain ⟨names, hsplit⟩ := hsplit
  obtain ⟨param, hparam, -⟩ := get?_canonicalTargets names rest
  refine ⟨param, fun hd => ?_, by rw [hsplit, hparam]; rfl⟩
  have hrest : Fields.Reordered rest rest := .refl (Fields.distinct_without _ hd)
  have hreordered := canonicalTargets_reordered names hrest
  rw [hparam] at hreordered
  exact hreordered.value.distinct

/-- A call by the key of an action raises no warning. -/
theorem callWith_warnings (a : Action) (own : Value) (item : Item) :
    (callWith a (ownPrompt own) (ownOptions own item)).run.warnings = [] := by
  have hbuild := (build_ownOptions own item).trans (Locator.build_none _)
  obtain ⟨param, -, hcall⟩ := callWith_of_build a hbuild
  rw [hcall, callOf_warnings]

/-- The last form raises no warning, whatever else the item has. -/
theorem build_action_warnings (registry : Registry) (item : Item) :
    (build registry item .action).run.warnings = [] := by
  show (buildAction registry item).run.warnings = []
  unfold buildAction
  split
  · rfl
  · rw [buildCall_eq]
    unfold ownCall
    split
    · exact callOf_warnings ..
    · exact callWith_warnings ..
  · rfl

/-- A prompt under the key of an action becomes its target. -/
theorem callWith_of_ownPrompt {own : Value} (a : Action) (hp : ownPrompt own = some p)
    (hd : Distinct item) : ∃ param, Distinct param ∧
      callWith a (ownPrompt own) (ownOptions own item) = callOf a (.obj (Fields.insert "locate"
        (Locator.described p (ownOptions own item)).toValue param)) := by
  have hbuild := (build_ownOptions own item).trans (Locator.build_none _)
  rw [promptAt?_ownOptions hp, Option.some_or, Option.map_some] at hbuild
  obtain ⟨param, hdistinct, hcall⟩ := callWith_of_build a hbuild
  exact ⟨param, hdistinct (distinct_ownOptions own hd), hcall⟩

/-- What an item of a form gives its action has distinct keys. -/
theorem distinct_given (hd : Distinct item) (rule : Rule) : Distinct (rule.given item) :=
  Fields.distinct_merge (Fields.distinct_without _ hd)

/-- The outcome of a call of the action with a locator of the prompt among the parameters. -/
def EndsAt (a : Action) (p : Prompt) (outcome : Except Error Command) : Prop :=
  ∃ (l : Locator) (param : Object), l.prompt = p ∧ get? "locate" param = some l.toValue ∧
    Distinct param ∧ outcome = (callOf a (.obj param)).run.value

theorem endsAt_insert {l : Locator} {fs : Object} (hl : l.prompt = p) (hd : Distinct fs) :
    EndsAt a p (callOf a (.obj (Fields.insert "locate" l.toValue fs))).run.value := by
  refine ⟨l, _, hl, ?_, Fields.distinct_insert hd, rfl⟩
  rw [Fields.get?_insert, if_pos rfl]

/-- The target that an item names by the keys of its form is the one that the action gets. -/
theorem build_endsAt (hd : Distinct item) (haim : rule.aim? registry item = some p)
    (ha : rule.callee? registry item = some a) :
    EndsAt a p (build registry item rule).run.value := by
  have hform : ∀ key, rule.calleeKey? = some key → registry.get? key = some a →
      (rule.target? item).bind Prompt.ofValue? = some p →
        EndsAt a p (build registry item rule).run.value := by
    intro key hkey hget hp
    rw [build_form_of_prompt hkey hp, callKey_value, hget]
    exact endsAt_insert rfl (distinct_given hd rule)
  cases rule with
  | input => exact hform _ rfl ha haim
  | keyboardPress => exact hform _ rfl ha haim
  | scroll => exact hform _ rfl ha haim
  | action =>
    dsimp only [Rule.aim?] at haim
    dsimp only [Rule.callee?] at ha
    split at ha
    · next b key hmatching =>
      cases ha
      rw [hmatching] at haim
      dsimp only at haim
      split at haim
      · cases haim
      · next hbare =>
        obtain ⟨own, hown, hp⟩ := Option.bind_eq_some_iff.mp haim
        obtain ⟨param, hdistinct, hcall⟩ := callWith_of_ownPrompt a hp hd
        rw [build_of_matching hmatching (Bool.eq_false_iff.mpr hbare) hown, hcall]
        exact endsAt_insert rfl hdistinct
    · cases ha
  | _ => cases ha

/-- Of a form the target and another prompt beside it, if they are not the same, make a warning.
The last form makes none. -/
theorem build_warnings (haim : rule.aim? registry item = some p)
    (hq : Locator.promptAt? "prompt" item = some q) : (build registry item rule).run.warnings =
      if rule = .action ∨ p.sameAs q then [] else [.promptConflict] := by
  have hform : ∀ key, rule.calleeKey? = some key →
      (rule.target? item).bind Prompt.ofValue? = some p → rule ≠ .action →
        (build registry item rule).run.warnings =
          if rule = .action ∨ p.sameAs q then [] else [.promptConflict] := by
    intro key hkey hp hrule
    rw [build_form_of_prompt hkey hp, hq]
    simp only [conflicts, hrule, false_or]
  cases rule with
  | input => exact hform _ rfl haim nofun
  | keyboardPress => exact hform _ rfl haim nofun
  | scroll => exact hform _ rfl haim nofun
  | action => rw [if_pos (.inl rfl), build_action_warnings]
  | _ => cases haim

/-- **Two prompts.** Let an item name its target by the keys of its form, and let it have a prompt
beside them. Text entry, key presses and scrolling raise a warning if and only if the two are not
the same, as texts or as objects whose entries may stand in another order; an action that is named
by its key raises none, same or not. In each form it is the former that counts: the action gets a
locator with this prompt, unless a check of its parameters fails. If the action takes a target, the
call has the locator unchanged, unless a function of the action makes something of the parameters
that is no object. -/
theorem resolve_of_two_prompts (registry : Registry) {item : Item} {rule : Rule} {p q : Prompt}
    (hd : Distinct item) (hrule : ruleOf? registry item = some rule)
    (haim : rule.aim? registry item = some p) (hq : Locator.promptAt? "prompt" item = some q) :
    (resolve registry item).run.warnings =
        (if rule = .action ∨ p.sameAs q then [] else [.promptConflict]) ∧
      (p.HasDistinctKeys → q.HasDistinctKeys → (p.sameAs q = true ↔ p.Same q)) ∧
      ∀ a, rule.callee? registry item = some a → ∃ (l : Locator) (param : Object), l.prompt = p ∧
        get? "locate" param = some l.toValue ∧
        (∀ e, a.normalize (.obj param) = .error e →
          (resolve registry item).run.value = .error (.validation e)) ∧
        ∀ v, a.normalize (.obj param) = .ok v →
          (resolve registry item).run.value =
              .ok ⟨rule, resultName? item, .ask (.call a.name v)⟩ ∧
            (a.TakesTarget → (∀ fs, v = .obj fs → get? "locate" fs = some l.toValue) ∧
              (a.OnlyStringifies → v.field? "locate" = some l.toValue)) := by
  rw [resolve_run hrule]
  refine ⟨build_warnings haim hq, fun hp hq => Prompt.sameAs_iff hp hq, fun a ha => ?_⟩
  obtain ⟨l, param, hl, hget, hdistinct, hends⟩ := build_endsAt hd haim ha
  rw [hends, callOf_value]
  refine ⟨l, param, hl, hget, fun e he => by rw [he]; rfl, fun v hv => ?_⟩
  refine ⟨by rw [hv]; rfl, fun htakes => ?_⟩
  have hlocate : ∀ fs, v = .obj fs → get? "locate" fs = some l.toValue :=
    fun fs hfs => Action.locate_normalize htakes hget nofun (hfs ▸ hv)
  refine ⟨hlocate, fun hsteps => ?_⟩
  obtain ⟨fs, hfs⟩ := Action.exists_obj_of_normalize hsteps hdistinct hv
  rw [hfs]
  exact hlocate fs hfs

/-- Two texts for the target of a text entry, and for that of a tap; and for a text entry the same
object twice, in two orders. -/
theorem resolve_of_two_prompts_tap :
    let logo : Object := [("prompt", .str "logo"), ("images", .arr [.str "logo.png"])]
    let turned : Object := [("images", .arr [.str "logo.png"]), ("prompt", .str "logo")]
    let entry : Item := [("aiInput", .str "field"), ("value", .str "shoes"), ("prompt", .str "box")]
    let twice : Item := [("aiInput", .obj logo), ("value", .str "shoes"), ("prompt", .obj turned)]
    let tap : Item := [("aiTap", .str "a"), ("prompt", .str "b")]
    (resolve .standard entry).run.warnings = [.promptConflict] ∧
      (resolve .standard twice).run.warnings = [] ∧
      (Prompt.structured logo).Same (.structured turned) ∧
      (resolve .standard tap).run.warnings = [] ∧
      ∃ (l : Locator) (v : Value), l.prompt = .text "a" ∧ v.field? "locate" = some l.toValue ∧
        (resolve .standard tap).run.value = .ok ⟨.action, none, .ask (.call "Tap" v)⟩ := by
  intro logo turned entry twice tap
  have hentry : Distinct entry := by decide
  have htwice : Distinct twice := by decide
  have htap : Distinct tap := by decide
  obtain ⟨hwarns, -, -⟩ := resolve_of_two_prompts .standard hentry rfl rfl rfl
  obtain ⟨hagrees, hsame, -⟩ := resolve_of_two_prompts .standard htwice rfl rfl rfl
  obtain ⟨hsilent, -, hcall⟩ := resolve_of_two_prompts .standard htap rfl rfl rfl
  have hequal : (Prompt.structured logo).sameAs (.structured turned) = true := rfl
  have hturned : (Prompt.structured logo).Same (.structured turned) :=
    (hsame (by decide : Distinct logo) (by decide : Distinct turned)).mp hequal
  obtain ⟨l, param, hl, -, herror, hok⟩ := hcall (.standard .tap) rfl
  have htakes : (Action.standard .tap).TakesTarget := by
    intro s hs
    cases hs
    decide
  cases hnormalize : (Action.standard .tap).normalize (.obj param) with
  | error e => cases herror e hnormalize
  | ok v =>
    obtain ⟨hstep, hlocate⟩ := hok v hnormalize
    have hunchanged := (hlocate htakes).2 (Action.onlyStringifies_standard .tap)
    exact ⟨hwarns, hagrees, hturned, hsilent, l, v, hl, hunchanged, hstep⟩

end Step

end Runbook
