/-
A `locate` that says nothing.

For a step with a form of its own a `locate` that is `null`, `false`, zero or the empty text names
no target: the target is what it is without the entry (`target?_without`). If there is one, it is
put in the place of the entry, and `null` is left out by the check, so the entry makes no
difference. But where there is no target nothing is put there, and targets are not checked: then
the value reaches the action, which is all the difference that it makes
(`resolve_without_locate`).
-/
import Runbook.Proofs.Step.Forms
import Runbook.Proofs.Step.Swipes

namespace Runbook

open Item
open Fields (get? keys Distinct without given)

/-! ## Leaving an entry out -/

/-- The value without some entries, if it is an object. -/
def Value.without (names : List String) : Value → Value
  | .obj fs => .obj (Fields.without names fs)
  | v => v

namespace Schema

open Runbook.Field (collect share)

variable {fields : List Field} {fs : Object} {key : String}

/-- The field that has no share contributes nothing, and the others what they did. -/
theorem collect_without {each each' : Field → Parsed (Option Value)}
    (hother : ∀ f ∈ fields, f.name ≠ key → each' f = each f)
    (hkey : ∀ f ∈ fields, f.name = key → each' f = .ok none ∧ ∃ w, each f = .ok w) :
    collect each' fields = (collect each fields).map (without [key]) := by
  induction fields with
  | nil => rfl
  | cons f rest ih =>
    simp only [List.mem_cons, forall_eq_or_imp] at hother hkey
    simp only [collect, ih hother.2 hkey.2]
    by_cases hf : f.name = key
    · obtain ⟨hnone, w, hw⟩ := hkey.1 hf
      rw [hnone, hw]
      cases collect each rest with
      | error e => rfl
      | ok es => cases w <;> simp [bind, Except.bind, Except.map, without, hf]
    · rw [hother.1 hf]
      cases each f with
      | error e => rfl
      | ok w =>
        cases collect each rest with
        | error e => rfl
        | ok es => cases w <;> simp [bind, Except.bind, Except.map, without, hf]

/-- Without the entry of a target that may be absent, an object is accepted as it is with it, and
the outcome is that without the target. -/
theorem normalize_without (hnames : (fields.map Field.name).Nodup)
    (htargets : ∀ f ∈ fields, f.locatable = true → ∃ n, f.schema = optional^[n] .locator)
    (hkey : ∀ f ∈ fields, f.name = key → f.locatable = true ∧ f.schema ≠ .locator) :
    (Schema.object fields).normalize (.obj (without [key] fs)) =
      ((Schema.object fields).normalize (.obj fs)).map (Value.without [key]) := by
  have hcollect : collect (share (without [key] fs)) fields =
      (collect (share fs) fields).map (without [key]) := by
    refine collect_without (fun f _ hf => share_congr (Fields.get?_without_ne hf fs)) ?_
    intro f hf hname
    obtain ⟨hlocatable, hschema⟩ := hkey f hf hname
    refine ⟨?_, (share_of_target hlocatable (htargets f hf hlocatable)).mpr (absurd · hschema)⟩
    obtain ⟨n, hn⟩ := htargets f hf hlocatable
    have hgiven : given f.name (without [key] fs) = false :=
      Fields.given_eq_false_iff.mpr (.inl (by simp [Fields.get?_without, hname]))
    have hshare := share_of_not_given hn hgiven
    rwa [if_neg (by rintro rfl; exact hschema hn)] at hshare
  rw [normalize_eq_collect hnames htargets, normalize_eq_collect hnames htargets, hcollect]
  cases collect (share fs) fields <;> rfl

end Schema

namespace StandardAction

variable {a : StandardAction} {param : Object} {v : Value}

/-- For an action that does without `locate`, leaving it out before the check is leaving it out
after the check. -/
theorem normalize_without_locate (ha : a.sparesLocate = true) (param : Object) :
    (Action.standard a).normalize (.obj (without ["locate"] param)) =
      ((Action.standard a).normalize (.obj param)).map (Value.without ["locate"]) := by
  have hkey : ∀ f ∈ a.fields, f.name = "locate" → f.locatable = true ∧ f.schema ≠ .locator := by
    intro f hf hname
    refine ⟨a.locatable_of_locate f hf hname, fun hschema => ?_⟩
    have hskips := List.all_eq_true.mp ha f hf
    rw [hname, hschema] at hskips
    cases hskips
  have hschema : a.schema.normalize (.obj (without ["locate"] param)) =
      (a.schema.normalize (.obj param)).map (Value.without ["locate"]) := by
    rw [a.schema_eq]
    exact Schema.normalize_without a.nodup_fields a.layers_of_locatable hkey
  simp only [Action.normalize, Action.standard, hschema]
  cases a.schema.normalize (.obj param) <;> rfl

/-- What comes out of the check under `locate` is what went in, if that was not `null`. -/
theorem locate_of_normalize (ha : "locate" ∈ a.fields.map Field.name)
    (h : (Action.standard a).normalize (.obj param) = .ok v) :
    ∃ fs, v = .obj fs ∧ get? "locate" fs = (get? "locate" param).filter (!·.isNull) := by
  obtain ⟨f, hf, hname⟩ := List.mem_map.mp ha
  refine ⟨_, normalize_ok h, ?_⟩
  rw [← hname, Field.get?_entries a.nodup_fields hf, Field.parameter?,
    a.locatable_of_locate f hf hname, if_pos rfl]

theorem normalize_congr (a : StandardAction) {fs gs : Object}
    (h : ∀ key, get? key fs = get? key gs) :
    (Action.standard a).normalize (.obj fs) = (Action.standard a).normalize (.obj gs) := by
  have hschema : a.schema.normalize (.obj fs) = a.schema.normalize (.obj gs) := by
    rw [a.schema_eq]
    exact Schema.normalize_congr a.onlyStringifies_fields rfl fun f _ => h f.name
  simp only [Action.normalize, Action.standard, hschema]

end StandardAction

/-! ## Forms -/

theorem Rule.locate_not_mem_keys (rule : Rule) : "locate" ∉ rule.keys := by cases rule <;> decide

namespace Step

variable {registry : Registry} {item : Item} {rule : Rule} {p : Prompt} {v : Value}

/-- `locate` does not make a form. -/
theorem ruleOf?_without_locate (hrule : ruleOf? registry item = some rule)
    (hform : rule.calleeKey?.isSome = true) :
    ruleOf? registry (without ["locate"] item) = some rule := by
  have hsame : ∀ r : Rule, r ≠ .action →
      r.applies registry (without ["locate"] item) = r.applies registry item := by
    intro r hr
    rw [r.applies_eq_hasAny hr, r.applies_eq_hasAny hr]
    refine hasAny_congr fun key hkey => Fields.get?_without_ne ?_ item
    exact fun heq => r.locate_not_mem_keys (heq ▸ hkey)
  have haction : rule ≠ .action := by
    rintro rfl
    cases hform
  have hspares : rule.Spares registry item := spares_of_ruleOf? hrule
  refine ruleOf?_eq_some ?_ fun r hr => ?_
  · rw [hsame rule haction]
    exact List.find?_some hrule
  · rw [hsame r fun heq => rule.action_not_mem_above (heq ▸ hr)]
    exact hspares r hr

/-! ## What is read without the entry -/

/-- Where `locate` says nothing, the rest says the same target and supplies the same. -/
theorem read_without (h : isSaid (get? "locate" item) = false) (rule : Rule) :
    rule.target? (without ["locate"] item) = rule.target? item ∧
      rule.supplied (without ["locate"] item) = rule.supplied item := by
  have hbare : isSaid (get? "locate" (without ["locate"] item)) = false := by
    rw [Fields.get?_without, if_pos (by simp)]
    rfl
  have hkeys : ∀ key ∈ ["aiInput", "value", "aiKeyboardPress", "keyName", "aiScroll"],
      get? key (without ["locate"] item) = get? key item :=
    fun key hkey => Fields.get?_without_ne (by rintro rfl; revert hkey; decide) item
  simp only [List.forall_mem_cons] at hkeys
  obtain ⟨hinput, hvalue, hpress, hkeyName, hscroll, -⟩ := hkeys
  constructor
  · simp only [Rule.target?, hbare, h, hinput, hpress, hkeyName, hscroll, Bool.false_eq_true,
      if_false]
  · simp only [Rule.supplied, hbare, h, hinput, hvalue, hpress, hkeyName]

theorem locate_not_mem_supplied (item : Item) (rule : Rule) :
    "locate" ∉ keys (rule.supplied item) := by
  have hentered : ∀ text, "locate" ∉ keys (Rule.entered text) := by
    intro text
    cases text with
    | none => exact List.not_mem_nil
    | some v => cases v <;> simp [Rule.entered, keys]
  have hpressed : ∀ key, "locate" ∉ keys (Rule.pressed key) := by
    intro key
    unfold Rule.pressed
    split
    · cases key <;> simp [keys]
    · exact List.not_mem_nil
  cases rule with
  | input => exact hentered _
  | keyboardPress => exact hpressed _
  | _ => exact List.not_mem_nil

theorem given_without (h : isSaid (get? "locate" item) = false) (rule : Rule) :
    rule.given (without ["locate"] item) = without ["locate"] (rule.given item) := by
  rw [Rule.given, Rule.given, (read_without h rule).2, Fields.without_merge_comm]
  · exact congrArg (Fields.merge · _) (Fields.without_comm _ _ item)
  · intro key hkey
    simp only [List.mem_singleton]
    rintro rfl
    exact locate_not_mem_supplied item rule hkey

theorem get?_given_locate (item : Item) (rule : Rule) :
    get? "locate" (rule.given item) = get? "locate" item := by
  rw [Rule.given, Fields.get?_merge_of_not_mem (locate_not_mem_supplied item rule)]
  exact get?_beside (by decide) (by cases rule <;> decide)

/-! ## Calls without the entry -/

/-- The forms call standard actions that take a target or do without. -/
theorem exists_callee (hstandard : ∀ a : StandardAction, .standard a ∈ registry.actions)
    (hform : rule ∈ [.input, .keyboardPress, .scroll]) :
    ∃ key a, rule.calleeKey? = some key ∧ registry.get? key = some (.standard a) ∧
      a.sparesLocate = true ∧ "locate" ∈ a.fields.map Field.name := by
  have hget : ∀ a : StandardAction, registry.get? a.name = some (.standard a) := fun a =>
    Registry.get?_eq_some_iff.mpr ⟨hstandard a, (Action.standard a).name_mem_keys⟩
  simp only [List.mem_cons, List.not_mem_nil, or_false] at hform
  rcases hform with rfl | rfl | rfl
  · exact ⟨_, .input, rfl, hget .input, by decide, by decide⟩
  · exact ⟨_, .keyboardPress, rfl, hget .keyboardPress, by decide, by decide⟩
  · exact ⟨_, .scroll, rfl, hget .scroll, by decide, by decide⟩

/-- Where there is a target, its locator is all that is under `locate`. -/
theorem build_without_locate_of_prompt {key : String} {a : StandardAction}
    (hkey : rule.calleeKey? = some key) (hget : registry.get? key = some (.standard a))
    (hunsaid : isSaid (get? "locate" item) = false)
    (hp : (rule.target? item).bind Prompt.ofValue? = some p) :
    build registry (without ["locate"] item) rule = build registry item rule := by
  have hbare : (rule.target? (without ["locate"] item)).bind Prompt.ofValue? = some p := by
    rw [(read_without hunsaid rule).1, hp]
  have hbeside : rule.beside (without ["locate"] item) = without ["locate"] (rule.beside item) :=
    Fields.without_comm _ _ item
  have hlocator : Locator.described p (rule.beside (without ["locate"] item)) =
      Locator.described p (rule.beside item) := by
    simp [Locator.described, Locator.flagAt, hbeside, Fields.get?_without]
  have hnormalize := a.normalize_congr (Fields.get?_insert_without "locate"
    (Locator.described p (rule.beside item)).toValue (rule.given item))
  show (build registry _ rule).run = (build registry item rule).run
  rw [build_form_of_prompt hkey hbare, build_form_of_prompt hkey hp, hlocator,
    given_without hunsaid, callKey_value, callKey_value, hget]
  simp only [callOf_value, hnormalize]
  rw [Locator.promptAt?, Fields.get?_without_ne (by decide), ← Locator.promptAt?]

/-- Where there is no target, the outcome is that of the check, which hands on what is under
`locate`. -/
theorem build_without_locate_of_none {key : String} {a : StandardAction}
    (hkey : rule.calleeKey? = some key) (hget : registry.get? key = some (.standard a))
    (hspares : a.sparesLocate = true) (hfield : "locate" ∈ a.fields.map Field.name)
    (hunsaid : isSaid (get? "locate" item) = false)
    (hp : (rule.target? item).bind Prompt.ofValue? = none) :
    let outcome := (build registry item rule).run
    let bare := (build registry (without ["locate"] item) rule).run
    outcome.warnings = [] ∧ bare.warnings = [] ∧
      ((∃ e, outcome.value = .error e ∧ bare.value = .error e) ∨
        ∃ fs, get? "locate" fs = (get? "locate" item).filter (!·.isNull) ∧
          outcome.value = .ok (.ask (.call a.name (.obj fs))) ∧
          bare.value = .ok (.ask (.call a.name (.obj (without ["locate"] fs))))) := by
  have hbare : (rule.target? (without ["locate"] item)).bind Prompt.ofValue? = none := by
    rw [(read_without hunsaid rule).1, hp]
  rw [build_form_of_none hkey hp, build_form_of_none hkey hbare, given_without hunsaid]
  refine ⟨callKey_warnings .., callKey_warnings .., ?_⟩
  rw [callKey_value, callKey_value, hget]
  simp only [callOf_value, StandardAction.normalize_without_locate hspares]
  cases hv : (Action.standard a).normalize (.obj (rule.given item)) with
  | error e => exact .inl ⟨_, rfl, rfl⟩
  | ok v =>
    obtain ⟨fs, rfl, hfs⟩ := StandardAction.locate_of_normalize hfield hv
    rw [get?_given_locate] at hfs
    exact .inr ⟨fs, hfs, rfl, rfl⟩

/-- **A `locate` that says nothing** names no target, for a step that enters a text, presses a key
or scrolls by a standard action. If the step has a target all the same, or if the entry is `null`,
it is as if the entry were not there. Else the step raises no warning with the entry and without
it, and fails with the same error or calls the same action; but then the value under `locate` is
among the parameters of the call, which are the same apart from that. -/
theorem resolve_without_locate (hstandard : ∀ a : StandardAction, .standard a ∈ registry.actions)
    (hrule : ruleOf? registry item = some rule) (hform : rule ∈ [.input, .keyboardPress, .scroll])
    (hlocate : get? "locate" item = some v) (hunsaid : isSaid (some v) = false) :
    let bare := without ["locate"] item
    (v = .null ∨ ((rule.target? item).bind Prompt.ofValue?).isSome →
        resolve registry bare = resolve registry item) ∧
      (v ≠ .null → (rule.target? item).bind Prompt.ofValue? = none →
        (resolve registry item).run.warnings = [] ∧ (resolve registry bare).run.warnings = [] ∧
          ((∃ e, (resolve registry item).run.value = .error e ∧
              (resolve registry bare).run.value = .error e) ∨
            ∃ action fs, get? "locate" fs = some v ∧
              (resolve registry item).run.value =
                .ok ⟨rule, resultName? item, .ask (.call action (.obj fs))⟩ ∧
              (resolve registry bare).run.value =
                .ok ⟨rule, resultName? item,
                  .ask (.call action (.obj (without ["locate"] fs)))⟩)) := by
  intro bare
  obtain ⟨key, a, hkey, hget, hspares, hfield⟩ := exists_callee hstandard hform
  have hsays : isSaid (get? "locate" item) = false := hlocate ▸ hunsaid
  have hitem := resolve_run hrule
  have hbare := resolve_run (ruleOf?_without_locate hrule (by rw [hkey]; rfl))
  have hname : resultName? bare = resultName? item := by
    rw [resultName?, Fields.get?_without_ne (by decide), ← resultName?]
  rw [hname] at hbare
  have hnone := build_without_locate_of_none hkey hget hspares hfield hsays
  rw [hlocate] at hnone
  constructor
  · intro h
    show (resolve registry bare).run = (resolve registry item).run
    rw [hbare, hitem]
    cases hp : (rule.target? item).bind Prompt.ofValue? with
    | some p => rw [build_without_locate_of_prompt hkey hget hsays hp]
    | none =>
      obtain rfl : v = .null := h.resolve_right (by simp [hp])
      obtain ⟨hquiet, hquiet', ⟨e, he, he'⟩ | ⟨fs, hfs, hok, hok'⟩⟩ := hnone hp
      · rw [hquiet, hquiet', he, he']
      · rw [hquiet, hquiet', hok, hok', Fields.without_of_get?_none hfs]
  · intro hnull hp
    rw [hbare, hitem]
    obtain ⟨hquiet, hquiet', ⟨e, he, he'⟩ | ⟨fs, hfs, hok, hok'⟩⟩ := hnone hp
    · exact ⟨hquiet, hquiet', .inl ⟨e, by rw [he]; rfl, by rw [he']; rfl⟩⟩
    · have hkept : (some v).filter (!·.isNull) = some v := by
        cases v <;> first | rfl | exact absurd rfl hnull
      exact ⟨hquiet, hquiet', .inr ⟨a.name, fs, hfs.trans hkept, by rw [hok]; rfl,
        by rw [hok']; rfl⟩⟩

/-- A text that is entered nowhere in particular, and one that is entered somewhere. -/
theorem resolve_without_locate_input :
    let nowhere : Item := [("aiInput", .str ""), ("value", .str "x"), ("locate", .bool false)]
    let somewhere : Item := [("aiInput", .str "box"), ("value", .str "x"), ("locate", .bool false)]
    resolve .standard (without ["locate"] somewhere) = resolve .standard somewhere ∧
      ∃ fs, get? "locate" fs = some (.bool false) ∧
        (resolve .standard nowhere).run.value =
          .ok ⟨.input, none, .ask (.call "Input" (.obj fs))⟩ ∧
        (resolve .standard (without ["locate"] nowhere)).run.value =
          .ok ⟨.input, none, .ask (.call "Input" (.obj (without ["locate"] fs)))⟩ := by
  intro nowhere somewhere
  have hstandard : ∀ a : StandardAction, .standard a ∈ Registry.standard.actions :=
    fun a => List.mem_map_of_mem a.mem_all
  have hsomewhere : ruleOf? .standard somewhere = some .input := rfl
  have hnowhere : ruleOf? .standard nowhere = some .input := rfl
  obtain ⟨hsame, -⟩ := resolve_without_locate hstandard hsomewhere (by simp) rfl rfl
  obtain ⟨-, hdiffer⟩ := resolve_without_locate hstandard hnowhere (by simp) rfl rfl
  obtain ⟨-, -, hends⟩ := hdiffer nofun rfl
  refine ⟨hsame (.inr rfl), ?_⟩
  rcases hends with ⟨e, he, -⟩ | ⟨action, fs, hlocate, hcall, hbare⟩
  · cases he
  · obtain rfl : "Input" = action := by cases hcall; rfl
    exact ⟨fs, hlocate, hcall, hbare⟩

end Step

end Runbook
