/-
What resolution has made of a step, resolved again.

The parameters of a resolved call can be written under the name of its action, as a step of their
own. For the standard actions this is the same call again as long as nothing is under `locate`:
what comes out of the check is settled, and the other targets are in full form. What is under
`locate` is taken for a prompt, though, also where it is a locator, and becomes the prompt of a
new one without any hints (`replayed`).

Resolution says nothing of how a call has come about, so the proof first collects what is known of
the parameters of any call (`resolve_returns`).
-/
import Runbook.Proofs.Action.Decoding
import Runbook.Proofs.Schema.Idempotence
import Runbook.Proofs.Step.Dispatch
import Runbook.Proofs.Step.Enclosed

namespace Runbook

open Item
open Fields (get?)

/-! ## The standard actions -/

/-- The registry of the standard actions. -/
def Registry.standard : Registry where
  actions := StandardAction.all.map Action.standard
  separate := by decide

theorem Registry.build_standard :
    Registry.build (StandardAction.all.map Action.standard) = .ok .standard := rfl

namespace StandardAction

/-- The fields of the parameters. -/
def fields (a : StandardAction) : List Field := a.schema.objectFields?.getD []

/-- The targets apart from `locate`. -/
def otherTargets (a : StandardAction) : List String :=
  a.schema.locatorNames.filter (· != "locate")

/-- Whether the action does without `locate`. -/
def sparesLocate (a : StandardAction) : Bool :=
  a.fields.all fun f => f.name != "locate" || f.schema.skips

theorem mem_all (a : StandardAction) : a ∈ all := by cases a <;> decide

theorem schema_eq (a : StandardAction) : a.schema = .object a.fields := by cases a <;> rfl

theorem not_acceptsBareString (a : StandardAction) :
    (Action.standard a).acceptsBareString = false := by
  cases a <;> rfl

theorem nodup_fields (a : StandardAction) : (a.fields.map Field.name).Nodup := by
  cases a <;> decide

theorem settling_fields (a : StandardAction) : (Schema.object a.fields).settling := by
  cases a <;> rfl

theorem onlyStringifies_fields (a : StandardAction) : (Schema.object a.fields).OnlyStringifies :=
  a.schema_eq ▸ a.onlyStringifies

theorem isTarget_of_locatable (a : StandardAction) :
    ∀ f ∈ a.fields, f.locatable → f.schema.isTarget := by
  have hs : a.schema.targetsOnly := by cases a <;> rfl
  exact Schema.targetsOnly_mem hs (by rw [a.schema_eq]; rfl)

/-- Parameters have names of their own. -/
theorem name_not_mem (a : StandardAction) :
    ∀ name ∈ a.fields.map Field.name, name ∉ Locator.keys ++ Step.ownKeys (.standard a) := by
  cases a <;> decide

/-- Only targets are called `locate`. -/
theorem locatable_of_locate (a : StandardAction) :
    ∀ f ∈ a.fields, f.name = "locate" → f.locatable = true := by
  cases a <;> decide

/-- What is known of the parameters that the forms of a step put together: targets are in full
form, and `locate`, where the action needs one, is a prompt. -/
structure Clear (a : StandardAction) (param : Object) : Prop where
  targets : ∀ name ∈ a.otherTargets, ∀ x, get? name param = some x → x.Canonical
  locate : a.sparesLocate ∨ ∀ x, get? "locate" param = some x → (Prompt.ofValue? x).isSome

/-- What is known of the parameters of a call. -/
structure Called (a : StandardAction) (fs : Object) : Prop extends a.Clear fs where
  settled : Schema.Settled a.fields fs

end StandardAction

/-- A call of a standard action, with what is known of its parameters. -/
def StandardAction.IsCall (action : String) (param : Value) : Prop :=
  ∃ (a : StandardAction) (fs : Object), action = a.name ∧ param = .obj fs ∧ a.Called fs

open Checked (Returns)

namespace StandardAction

variable {a : StandardAction} {param fs : Object}

theorem ne_locate_of_mem {name : String} (h : name ∈ a.otherTargets) : name ≠ "locate" := by
  simpa using (List.mem_filter.mp h).2

/-- A target of the action is under the name of a locatable field. -/
theorem field_of_target {name : String} (h : name ∈ a.otherTargets) :
    ∃ f ∈ a.fields, f.locatable = true ∧ f.name = name := by
  obtain ⟨f, hf, hname⟩ := List.mem_map.mp (List.mem_filter.mp h).1
  obtain ⟨hf, hlocatable⟩ := List.mem_filter.mp hf
  exact ⟨f, hf, hlocatable, hname⟩

/-- What is known of the parameters that go into the check is known of those that come out. -/
theorem Clear.called {v : Value} (h : a.Clear param)
    (hnormalize : (Action.standard a).normalize (.obj param) = .ok v) :
    ∃ fs, v = .obj fs ∧ a.Called fs := by
  have hschema := Action.normalize_standard hnormalize
  rw [a.schema_eq] at hschema
  obtain ⟨fs, rfl, hsettled, hkept⟩ :=
    Schema.normalize_settled a.settling_fields a.onlyStringifies_fields a.isTarget_of_locatable
      hschema
  refine ⟨fs, rfl, ⟨fun name hname x hx => ?_, h.locate.imp_right fun hprompt x hx => ?_⟩, hsettled⟩
  · obtain ⟨f, hf, hlocatable, rfl⟩ := field_of_target hname
    exact h.targets _ hname x (hkept f hf hlocatable x hx)
  · obtain ⟨f, hf, hname⟩ := List.mem_map.mp (hsettled.keys.subset (Fields.mem_keys_of_get? hx))
    rw [← hname] at hx
    exact hprompt x (hname ▸ hkept f hf (a.locatable_of_locate f hf hname) x hx)

end StandardAction

/-! ## Calls -/

namespace Step

variable {item : Item}

theorem callOf_returns {a : StandardAction} {param : Object} (h : a.Clear param) :
    Returns (Command.Calls StandardAction.IsCall) (callOf (.standard a) (.obj param)) := by
  refine callOf_calls fun v hv => ?_
  obtain ⟨fs, rfl, hcalled⟩ := h.called hv
  exact ⟨a, fs, rfl, rfl, hcalled⟩

theorem callWith_returns (a : StandardAction) (prompt : Option Prompt) (options : Object) :
    Returns (Command.Calls StandardAction.IsCall) (callWith (.standard a) prompt options) := by
  unfold callWith
  refine .lift_bind ?_
  generalize hsplit : (Locator.split prompt options (ownKeys (.standard a))).value = s
  have hrest : get? "locate" s.rest = none := by
    rw [← hsplit]
    show get? "locate" (Fields.without _ options) = none
    rw [Fields.get?_without, if_pos (by simp)]
  obtain ⟨param, hparam, hget⟩ := get?_canonicalTargets a.otherTargets s.rest
  have hlocate : get? "locate" param = none := by
    rw [hget, if_neg fun hmem => StandardAction.ne_locate_of_mem hmem rfl, hrest]
  have hfull : ∀ name ∈ a.otherTargets, ∀ x, get? name param = some x → x.Canonical := by
    intro name hname x hx
    rw [hget, if_pos hname] at hx
    obtain ⟨v, -, rfl⟩ := Option.map_eq_some_iff.mp hx
    exact Locator.canonical_inFull v
  show Returns _ ((liftM (canonicalTargets a.otherTargets s.rest) : Checked Object) >>= _)
  rw [hparam]
  refine .lift_bind ?_
  cases s.locator with
  | none =>
    have hclear : a.Clear param :=
      ⟨hfull, .inr fun x hx => by rw [hlocate] at hx; cases hx⟩
    exact callOf_returns hclear
  | some l =>
    have hclear : a.Clear (Fields.insert "locate" l.toValue param) := by
      refine ⟨fun name hname x hx => ?_, .inr fun x hx => ?_⟩
      · rw [Fields.get?_insert, if_neg (StandardAction.ne_locate_of_mem hname).symm] at hx
        exact hfull name hname x hx
      · rw [Fields.get?_insert, if_pos rfl] at hx
        cases hx
        rfl
    exact callOf_returns hclear

theorem buildCall_returns (a : StandardAction) (key : String) :
    Returns (Command.Calls StandardAction.IsCall) (buildCall (.standard a) key item) := by
  rw [buildCall_eq, ownCall_of_not_bare a.not_acceptsBareString]
  exact callWith_returns a _ _

theorem build_returns (rule : Rule) :
    Returns (Command.Calls StandardAction.IsCall) (build .standard item rule) := by
  refine build_calls rule (fun a ha param => ?_) fun _ a key hmatching => ?_
  · -- The actions with a form of their own have no other target than `locate`, and do without it.
    have hform : ∃ s : StandardAction, a = .standard s ∧ s.otherTargets = [] ∧ s.sparesLocate := by
      cases rule with
      | input => exact ⟨.input, (Option.some.inj ha).symm, rfl, rfl⟩
      | keyboardPress => exact ⟨.keyboardPress, (Option.some.inj ha).symm, rfl, rfl⟩
      | scroll => exact ⟨.scroll, (Option.some.inj ha).symm, rfl, rfl⟩
      | _ => cases ha
    obtain ⟨s, rfl, hnames, hspares⟩ := hform
    exact callOf_returns ⟨hnames ▸ nofun, .inl hspares⟩
  · have hcallee : Rule.callee? .standard item .action = some a := by
      simp only [Rule.callee?, hmatching]
    obtain ⟨s, -, rfl⟩ := List.mem_map.mp (Rule.mem_of_callee? hcallee)
    exact buildCall_returns s key

/-- A call that a step resolves to is one of a standard action. -/
theorem resolve_returns :
    Returns (fun s => s.command.Calls StandardAction.IsCall) (resolve .standard item) :=
  resolve_calls build_returns

/-! ## Calls as steps -/

/-- What becomes of the parameters of a call when they are resolved once more: what is under
`locate` is the prompt of a new locator, or dropped if it is no prompt. -/
def replayed (fs : Object) : Object :=
  match get? "locate" fs with
  | none => fs
  | some x =>
    match Prompt.ofValue? x with
    | some p => Fields.insert "locate" (Locator.toValue { prompt := p }) fs
    | none => Fields.without ["locate"] fs

theorem get?_replayed (fs : Object) (key : String) : get? key (replayed fs) =
    if key = "locate" then
      ((get? "locate" fs).bind Prompt.ofValue?).map fun p => Locator.toValue { prompt := p }
    else get? key fs := by
  unfold replayed
  split
  · next hnone =>
    split
    · next hkey => rw [hkey, hnone]; rfl
    · rfl
  · next x hx =>
    rw [hx, Option.bind_some]
    split
    · next p hp =>
      rw [Fields.get?_insert, hp]
      split
      · next hkey => rw [if_pos hkey.symm]; rfl
      · next hkey => rw [if_neg (Ne.symm hkey)]
    · next hnone =>
      rw [Fields.get?_without, hnone]
      split
      · next hkey => rw [if_pos (List.mem_singleton.mp hkey)]; rfl
      · next hkey => rw [if_neg fun heq => hkey (List.mem_singleton.mpr heq)]

/-- A locator is not its own prompt. -/
theorem ofValue?_toValue_ne (l : Locator) : Prompt.ofValue? l.toValue ≠ some l.prompt := by
  intro h
  have hprompt : l.prompt = .structured l.toFields := (Option.some.inj h).symm
  have hfields : l.toFields = ("prompt", .obj l.toFields) :: l.toFields.tail := by
    conv_lhs => rw [Locator.toFields, hprompt]
    rfl
  have hsize := congrArg sizeOf hfields
  simp only [List.cons.sizeOf_spec, Prod.mk.sizeOf_spec, Value.obj.sizeOf_spec] at hsize
  omega

theorem replayed_eq_self_iff (fs : Object) : replayed fs = fs ↔ get? "locate" fs = none := by
  constructor
  · intro h
    have hget := get?_replayed fs "locate"
    rw [h, if_pos rfl] at hget
    cases hx : get? "locate" fs with
    | none => rfl
    | some x =>
      rw [hx, Option.bind_some] at hget
      obtain ⟨p, hp, hvalue⟩ := Option.map_eq_some_iff.mp hget.symm
      exact absurd (hvalue ▸ hp) (ofValue?_toValue_ne { prompt := p })
  · intro h
    simp only [replayed, h]

variable {a : StandardAction} {fs : Object} {v : Value}

theorem keys_replayed (fs : Object) : (Fields.keys (replayed fs)).Sublist (Fields.keys fs) := by
  unfold replayed
  split
  · exact List.Sublist.refl _
  · next x hx =>
    split
    · rw [Fields.keys_insert, if_pos (Fields.mem_keys_of_get? hx)]
    · exact List.filter_sublist.map _

/-- An action that does without `locate` accepts that it is missing. -/
theorem parse_locate (hspares : a.sparesLocate) {f : Field} (hf : f ∈ a.fields)
    (hname : f.name = "locate") (path : String) : f.schema.parse none path = .ok none := by
  have hskips : f.schema.skips := by
    simp only [StandardAction.sparesLocate, List.all_eq_true] at hspares
    simpa [hname] using hspares f hf
  have htarget := a.isTarget_of_locatable f hf (a.locatable_of_locate f hf hname)
  unfold Schema.isTarget at htarget
  split at htarget
  · next hschema => rw [hschema] at hskips; cases hskips
  · next hschema => rw [hschema]; rfl
  · cases htarget

/-- The check leaves the parameters as they are after they have been resolved once more. -/
theorem settled_replayed (h : a.Called fs) : Schema.Settled a.fields (replayed fs) := by
  refine ⟨(keys_replayed fs).trans h.settled.keys, fun f hf => ?_⟩
  have hget := get?_replayed fs f.name
  unfold Schema.Stands
  by_cases hname : f.name = "locate"
  · rw [if_pos hname] at hget
    cases hprompt : (get? "locate" fs).bind Prompt.ofValue? with
    | some p =>
      rw [hprompt] at hget
      exact .inl ⟨a.locatable_of_locate f hf hname, _, hget, nofun⟩
    | none =>
      rw [hprompt] at hget
      right
      rw [hget, Option.map_none]
      cases hx : get? "locate" fs with
      | none =>
        rcases h.settled.entries f hf with ⟨-, x, hsome, -⟩ | hparse
        · rw [hname, hx] at hsome
          cases hsome
        · rwa [hname, hx, ← hname] at hparse
      | some x =>
        rcases h.locate with hspares | hall
        · exact parse_locate hspares hf hname _
        · rw [hx, Option.bind_some] at hprompt
          exact absurd (hall x hx) (by rw [hprompt]; nofun)
  · rw [if_neg hname] at hget
    rw [hget]
    exact h.settled.entries f hf

/-- The parameters of a call, in the order in which resolution finds them. -/
theorem normalize_replayed (h : a.Called fs) {param : Object}
    (hparam : ∀ key, get? key param = get? key (replayed fs)) :
    (Action.standard a).normalize (.obj param) = .ok (.obj (replayed fs)) := by
  have hnormalize := (settled_replayed h).normalize a.nodup_fields a.isTarget_of_locatable
  rw [← Schema.normalize_congr a.onlyStringifies_fields rfl fun f _ => hparam f.name,
    ← a.schema_eq] at hnormalize
  simp only [Action.normalize, Action.standard, hnormalize]

/-- All that the step gives to the action. -/
def givenBack (a : StandardAction) (fs : Object) : Object :=
  Fields.merge (asItem a.name (.obj fs)) fs

/-- The parameters say nothing that a step says apart from its parameters. -/
theorem get?_meant (h : a.Called fs) {key : String}
    (hkey : key ∈ Locator.keys ++ ownKeys (.standard a)) : get? key fs = none :=
  Fields.get?_eq_none_iff.mpr fun hmem =>
    a.name_not_mem key (h.settled.keys.subset hmem) hkey

theorem get?_givenBack (h : a.Called fs) (key : String) : get? key (givenBack a fs) =
    (get? key fs).or (if a.name = key then some (.obj fs) else none) :=
  get?_enclosing (a.nodup_fields.sublist h.settled.keys) key

/-- The target is what stands under `locate`, without hints. -/
theorem build_givenBack (h : a.Called fs) : Locator.build none (givenBack a fs) =
    pure (((get? "locate" fs).bind Prompt.ofValue?).map fun p => { prompt := p }) := by
  have hown : a.name ∉ "locate" :: Locator.keys := by cases a <;> decide
  have hget : ∀ key ∈ "locate" :: Locator.keys, get? key (givenBack a fs) = get? key fs := by
    intro key hkey
    rw [get?_givenBack h, if_neg fun heq : a.name = key => hown (heq ▸ hkey), Option.or_none]
  have hnone : ∀ key ∈ Locator.keys, get? key (givenBack a fs) = none := fun key hkey =>
    (hget key (List.mem_cons_of_mem _ hkey)).trans (get?_meant h (List.mem_append_left _ hkey))
  simp only [Locator.build_none, Locator.promptAt?, Locator.described, Locator.flagAt,
    hnone "prompt" (by decide), hnone "deepThink" (by decide), hnone "cacheable" (by decide),
    hnone "xpath" (by decide), hget "locate" (by decide), Option.bind_none, Option.none_or]
  rfl

/-- What is left for the action when some keys are used up by its target. -/
def leftOver (a : StandardAction) (used : List String) (fs : Object) : Object :=
  Fields.without ("locate" :: used ++ ownKeys (.standard a)) (givenBack a fs)

/-- All is left but `locate`. -/
theorem get?_leftOver (h : a.Called fs) {used : List String} (hused : ∀ k ∈ used, k ∈ Locator.keys)
    (key : String) : get? key (leftOver a used fs) =
      if key = "locate" then none else get? key fs := by
  rw [leftOver, Fields.get?_without, get?_givenBack h]
  by_cases hlocate : key = "locate"
  · rw [if_pos hlocate, if_pos (by simp [hlocate])]
  · rw [if_neg hlocate]
    split
    · next hmem =>
      simp only [List.cons_append, List.mem_cons, hlocate, false_or, List.mem_append] at hmem
      exact (get?_meant h (List.mem_append.mpr (hmem.imp_left (hused key)))).symm
    · next hmem =>
      have hname : a.name ≠ key := by
        rintro rfl
        exact hmem (by simp [ownKeys, Action.standard])
      rw [if_neg hname, Option.or_none]

/-- The targets that are left over are in full form already. -/
theorem canonicalTargets_leftOver (h : a.Called fs) {used : List String}
    (hused : ∀ k ∈ used, k ∈ Locator.keys) :
    canonicalTargets a.otherTargets (leftOver a used fs) = pure (leftOver a used fs) := by
  refine canonicalTargets_of_canonical fun name hname x hx => ?_
  rw [get?_leftOver h hused, if_neg (StandardAction.ne_locate_of_mem hname)] at hx
  exact h.targets name hname x hx

theorem callOf_replayed (h : a.Called fs) {param : Object}
    (hparam : ∀ key, get? key param = get? key (replayed fs)) :
    callOf (.standard a) (.obj param) = pure (.ask (.call a.name (.obj (replayed fs)))) := by
  unfold callOf
  rw [normalize_replayed h hparam]
  rfl

theorem callWith_givenBack (h : a.Called fs) : callWith (.standard a) none (givenBack a fs) =
    pure (.ask (.call a.name (.obj (replayed fs)))) := by
  have hreplayed := get?_replayed fs
  unfold callWith Locator.split
  rw [build_givenBack h]
  cases hprompt : (get? "locate" fs).bind Prompt.ofValue? with
  | none =>
    rw [hprompt] at hreplayed
    have hused : ∀ k ∈ ([] : List String), k ∈ Locator.keys := nofun
    show ((liftM (canonicalTargets a.otherTargets (leftOver a [] fs)) : Checked Object) >>=
      fun param => callOf (.standard a) (.obj param)) = _
    rw [canonicalTargets_leftOver h hused]
    exact callOf_replayed h fun key => (get?_leftOver h hused key).trans (hreplayed key).symm
  | some p =>
    rw [hprompt] at hreplayed
    have hused : ∀ k ∈ Locator.keys, k ∈ Locator.keys := fun _ hk => hk
    show ((liftM (canonicalTargets a.otherTargets (leftOver a Locator.keys fs)) : Checked Object) >>=
      fun param => callOf (.standard a)
        (.obj (Fields.insert "locate" (Locator.toValue { prompt := p }) param))) = _
    rw [canonicalTargets_leftOver h hused]
    have hparam : ∀ key, get? key (Fields.insert "locate" (Locator.toValue { prompt := p })
        (leftOver a Locator.keys fs)) = get? key (replayed fs) := by
      intro key
      rw [Fields.get?_insert, get?_leftOver h hused, hreplayed, Option.map_some]
      by_cases hkey : key = "locate"
      · rw [if_pos hkey.symm, if_pos hkey]
      · rw [if_neg (Ne.symm hkey), if_neg hkey, if_neg hkey]
    exact callOf_replayed h hparam

/-- A call as a step resolves to the call with its target taken for a prompt. -/
theorem resolve_asItem (h : a.Called fs) :
    resolve .standard (asItem a.name (.obj fs)) =
      pure ⟨.action, none, .ask (.call a.name (.obj (replayed fs)))⟩ := by
  have hkey : a.name ∈ (Action.standard a).keys := by simp [Action.keys, Action.standard]
  have hform : a.name ∉ Rule.intrinsicKeys := by cases a <;> decide
  rw [resolve_enclosing (List.mem_map_of_mem a.mem_all) hkey hform]
  show (callWith (.standard a) none (givenBack a fs) >>= _) = _
  rw [callWith_givenBack h]
  rfl

/-- **Calls resolve to calls.** The parameters of a call that a step for a standard action comes
to, written under the name of the action, resolve without a warning to a call of the same action
that differs at most in `locate`: there the value, if it is a prompt, has become the prompt of a
locator without hints, and is dropped otherwise. It is the same call exactly if nothing is under
`locate`. -/
theorem resolve_replayed {registry : Registry}
    (hregistry : Registry.build (StandardAction.all.map Action.standard) = .ok registry)
    {item : Item} {s : Step} {action : String} {param : Value}
    (hstep : (resolve registry item).run.value = .ok s)
    (hcall : s.command = .ask (.call action param)) :
    ∃ fs, param = .obj fs ∧
      resolve registry (asItem action param) =
        pure ⟨.action, none, .ask (.call action (.obj (replayed fs)))⟩ ∧
      (replayed fs = fs ↔ get? "locate" fs = none) := by
  obtain rfl : Registry.standard = registry :=
    Except.ok.inj (Registry.build_standard.symm.trans hregistry)
  obtain ⟨a, fs, rfl, rfl, h⟩ := resolve_returns s hstep action param hcall
  exact ⟨fs, rfl, resolve_asItem h, replayed_eq_self_iff fs⟩

/-- A tap with a hint: resolved once more, the hint is gone from where it is looked for. -/
theorem resolve_replayed_tap :
    let locate : Value := .obj [("prompt", .str "button"), ("deepThink", .bool true),
      ("cacheable", .bool true)]
    let nested : Value := .obj [("prompt", locate), ("deepThink", .bool false),
      ("cacheable", .bool true)]
    let step : Step := ⟨.action, none, .ask (.call "Tap" (.obj [("locate", locate)]))⟩
    Registry.build (StandardAction.all.map Action.standard) = .ok .standard ∧
      (resolve .standard [("aiTap", .str "button"), ("deepThink", .bool true)]).run.value =
        .ok step ∧
      step.command = .ask (.call "Tap" (.obj [("locate", locate)])) ∧
      resolve .standard [("Tap", .obj [("locate", locate)])] =
        pure ⟨.action, none, .ask (.call "Tap" (.obj [("locate", nested)]))⟩ ∧
      replayed [("locate", locate)] ≠ [("locate", locate)] := by
  intro locate nested step
  have hregistry : Registry.build (StandardAction.all.map Action.standard) = .ok .standard := rfl
  have hstep : (resolve .standard [("aiTap", .str "button"), ("deepThink", .bool true)]).run.value =
      .ok step := rfl
  have hcall : step.command = .ask (.call "Tap" (.obj [("locate", locate)])) := rfl
  obtain ⟨fs, hfs, hagain, hsame⟩ := resolve_replayed hregistry hstep hcall
  cases hfs
  exact ⟨hregistry, hstep, hcall, hagain, fun heq => by cases hsame.mp heq⟩

/-- A drag has two targets and no `locate`: its call resolves to itself. -/
example :
    let hinted (text : String) : Value :=
      .obj [("prompt", .str text), ("deepThink", .bool true), ("cacheable", .bool true)]
    let param : Value := .obj [("from", hinted "card"), ("to", hinted "pile")]
    (resolve .standard [("DragAndDrop", param)]).run.value =
      .ok ⟨.action, none, .ask (.call "DragAndDrop" param)⟩ := rfl

end Step

end Runbook
