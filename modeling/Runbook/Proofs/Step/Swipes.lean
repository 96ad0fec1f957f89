/-
Swipes that no screen allows.

Whether a swipe has an end is a matter of several parameters at once: an end, or a distance and a
direction. The check of parameters looks at each by itself, so a step without an end is understood
and the action is called (`resolve_swipe`). What is missing is missed only when the swipe is worked
out on a screen, and then on every screen (`swipeOutcome_of_endless`).

On the way to the call targets are brought into full form. That makes nothing of `null` and never
gives `null`, so what a step gives is given to the action (`given_inFull`).
-/
import Runbook.Proofs.Rereading
import Runbook.Proofs.Schema.Fieldwise
import Runbook.Proofs.Step.Replay

namespace Runbook

open Fields (get? given)

/-! ## What is missing -/

/-- The parameters do not say where a swipe ends, on whatever screen: there is no end, and no
distance or no direction for it. -/
def SwipeParams.Endless (fs : Object) : Prop :=
  given "end" fs = false ∧ (given "distance" fs = false ∨ given "direction" fs = false)

instance (fs : Object) : Decidable (SwipeParams.Endless fs) :=
  inferInstanceAs (Decidable (_ ∧ _))

/-- An optional member that is not given is read as absent. -/
theorem Decode.Record.optional_of_not_given {α : Type} {name : String} {read : Value → Decoded α}
    {fs : Object} {o : Option α} (hgiven : given name fs = false)
    (h : (optional name read).make (fun key => get? key fs) = .ok o) : o = none := by
  rcases Fields.given_eq_false_iff.mp hgiven with hget | hget
  · simp only [optional, withDefault, hget] at h
    exact (Except.ok.inj h).symm
  · simp only [optional, withDefault, hget] at h
    exact (Except.ok.inj h).symm

open Decode.Record (make_seq_ok make_map_ok optional_of_not_given)

namespace SwipeParams

variable {fs : Object} {p : SwipeParams}

/-- Each parameter is read by itself. -/
theorem members_of_decode (h : decode (.obj fs) = .ok p) :
    let entry := fun key => get? key fs
    (Decode.Record.optional "start" Decode.any).make entry = .ok p.start ∧
      (Decode.Record.optional "end" Decode.any).make entry = .ok p.finish ∧
      (Decode.Record.optional "direction" Direction.decode).make entry = .ok p.direction ∧
      (Decode.Record.optional "distance" Decode.real).make entry = .ok p.distance ∧
      (Decode.Record.optional "duration" Decode.natural64).make entry = .ok p.duration ∧
      (Decode.Record.optional "repeat" Decode.natural32).make entry = .ok p.count := by
  obtain ⟨-, -, hmake⟩ := bind_ok h
  simp only [record, make_seq_ok, make_map_ok] at hmake
  obtain ⟨_, ⟨_, ⟨_, ⟨_, ⟨_, ⟨start, hstart, rfl⟩, finish, hfinish, rfl⟩, direction, hdirection,
    rfl⟩, distance, hdistance, rfl⟩, duration, hduration, rfl⟩, count, hcount, rfl⟩ := hmake
  exact ⟨hstart, hfinish, hdirection, hdistance, hduration, hcount⟩

/-- Parameters that do not say where a swipe ends are read as such. -/
theorem endless_of_decode (h : decode (.obj fs) = .ok p) (hfs : Endless fs) :
    p.finish = none ∧ (p.distance = none ∨ p.direction = none) := by
  obtain ⟨-, hfinish, hdirection, hdistance, -, -⟩ := members_of_decode h
  refine ⟨optional_of_not_given hfs.1 hfinish, hfs.2.imp (fun hgiven => ?_) fun hgiven => ?_⟩
  · exact optional_of_not_given hgiven hdistance
  · exact optional_of_not_given hgiven hdirection

/-- Such a swipe fails on every screen. -/
theorem swipeOutcome_of_endless (hfinish : p.finish = none)
    (hdistance : p.distance = none ∨ p.direction = none) (screen : Screen) :
    ∃ text, Action.swipeOutcome p screen = .failure text := by
  unfold Action.swipeOutcome gesture
  rw [hfinish]
  cases point "start" p.start with
  | error f => exact ⟨_, rfl⟩
  | ok start =>
    cases hd : p.distance with
    | none => exact ⟨_, rfl⟩
    | some d =>
      have hdirection : p.direction = none := hdistance.resolve_left (by simp [hd])
      rw [hdirection]
      exact ⟨_, rfl⟩

/-- A call with such parameters answers nothing where the size of the screen is known. -/
theorem call_ne_value (hfs : Endless fs) (device : Value → Outcome Value) (screen : Screen)
    (v : Value) : (Action.standard .swipe).call device (some screen) (.obj fs) ≠ .value v := by
  have hhand : (Action.standard .swipe).hand (.obj fs) =
      ((decode (.obj fs)).map Params.swipe).map Action.Handed.typed := rfl
  unfold Action.call
  rw [hhand]
  cases hp : decode (.obj fs) with
  | error e => nofun
  | ok p =>
    obtain ⟨hfinish, hdistance⟩ := endless_of_decode hp hfs
    obtain ⟨text, htext⟩ := swipeOutcome_of_endless hfinish hdistance screen
    show (Action.Handed.typed (.swipe p)).conclude (some screen) (device p.toValue) ≠ .value v
    cases device p.toValue with
    | value w =>
      show Action.swipeOutcome p screen ≠ .value v
      rw [htext]
      nofun
    | failure text => nofun
    | never => nofun
    | crash => nofun

end SwipeParams

/-! ## What arrives -/

/-- Nothing but `null` has `null` for its full form. -/
theorem Locator.isNull_inFull (v : Value) : (inFull v).isNull = v.isNull := by
  unfold inFull
  cases hl : ofTarget? v with
  | none => rfl
  | some l =>
    cases v with
    | null => cases hl
    | _ => rfl

/-- The full form of a target is there exactly if the target is. -/
theorem given_inFull {key : String} {fs gs : Object}
    (h : get? key gs = (get? key fs).map Locator.inFull) : given key gs = given key fs := by
  unfold given
  rw [h]
  cases get? key fs with
  | none => rfl
  | some v => exact congrArg (! ·) (Locator.isNull_inFull v)

/-! ## What the check makes of it -/

namespace Schema

/-- An optional field that is not given is not among the parameters. -/
theorem not_given_entries {fields : List Field} {f : Field} {fs : Object} {inner : Schema}
    (hnames : (fields.map Field.name).Nodup) (hf : f ∈ fields)
    (hschema : f.schema = .optional inner) (hgiven : given f.name fs = false) :
    given f.name (Field.entries (Field.parameter? fs) fields) = false := by
  have hparameter : f.parameter? fs = none := by
    rcases Fields.given_eq_false_iff.mp hgiven with hget | hget
    · simp [Field.parameter?, Field.check, hget, hschema, Except.toOption]
    · simp [Field.parameter?, Field.check, hget, hschema, Except.toOption, Value.isNull]
  exact Fields.given_eq_false_iff.mpr (.inl ((Field.get?_entries hnames hf).trans hparameter))

end Schema

namespace StandardAction

variable {a : StandardAction} {param : Object} {v : Value}

/-- The targets of an action apart from `locate` are its locatable fields. -/
theorem mem_otherTargets {f : Field} (hf : f ∈ a.fields) (hlocate : f.name ≠ "locate") :
    f.name ∈ a.otherTargets ↔ f.locatable = true := by
  constructor
  · intro hmem
    obtain ⟨g, hg, hlocatable, hname⟩ := field_of_target hmem
    obtain rfl := List.inj_on_of_nodup_map a.nodup_fields hg hf hname
    exact hlocatable
  · intro hlocatable
    refine List.mem_filter.mpr ⟨List.mem_map_of_mem (List.mem_filter.mpr ⟨hf, hlocatable⟩), ?_⟩
    simpa using hlocate

theorem layers_of_locatable (a : StandardAction) :
    ∀ f ∈ a.fields, f.locatable = true → ∃ n, f.schema = Schema.optional^[n] .locator := by
  intro f hf hlocatable
  have htarget := a.isTarget_of_locatable f hf hlocatable
  unfold Schema.isTarget at htarget
  split at htarget
  · next hschema => exact ⟨0, hschema⟩
  · next hschema => exact ⟨1, hschema⟩
  · cases htarget

/-- An action takes parameters of which each by itself is accepted. -/
theorem normalize_ok_iff (a : StandardAction) (param : Object) :
    (∃ w, (Action.standard a).normalize (.obj param) = .ok w) ↔
      (∀ f ∈ a.fields, f.locatable = false →
        ∃ w, f.schema.parse (get? f.name param) f.name = .ok w) ∧
      ∀ f ∈ a.fields, f.locatable = true → f.schema = .locator → given f.name param = true := by
  have haction : (∃ w, (Action.standard a).normalize (.obj param) = .ok w) ↔
      ∃ w, a.schema.normalize (.obj param) = .ok w := by
    simp only [Action.normalize, Action.standard]
    cases a.schema.normalize (.obj param) <;> simp
  have hplain : ∀ f : Field, f.locatable = false →
      f.share param = f.schema.parse (get? f.name param) f.name :=
    fun _ => Schema.share_of_plain
  rw [haction, a.schema_eq, Schema.normalize_ok_iff a.nodup_fields a.layers_of_locatable]
  constructor
  · intro hall
    refine ⟨fun f hf hlocatable => ?_, fun f hf hlocatable => ?_⟩
    · rw [← hplain f hlocatable]
      exact hall f hf
    · exact (Schema.share_of_target hlocatable (a.layers_of_locatable f hf hlocatable)).mp
        (hall f hf)
  · rintro ⟨hothers, hthere⟩ f hf
    cases hlocatable : f.locatable with
    | false =>
      rw [hplain f hlocatable]
      exact hothers f hf hlocatable
    | true =>
      exact (Schema.share_of_target hlocatable (a.layers_of_locatable f hf hlocatable)).mpr
        (hthere f hf hlocatable)

theorem normalize_ok (h : (Action.standard a).normalize (.obj param) = .ok v) :
    v = .obj (Field.entries (Field.parameter? param) a.fields) := by
  have hschema := Action.normalize_standard h
  rw [a.schema_eq] at hschema
  exact Schema.normalize_ok a.nodup_fields a.layers_of_locatable hschema

/-- No target of a swipe has to be there. -/
theorem normalize_swipe_ok_iff (param : Object) :
    (∃ w, (Action.standard .swipe).normalize (.obj param) = .ok w) ↔
      ∀ f ∈ swipe.fields, f.locatable = false →
        ∃ w, f.schema.parse (get? f.name param) f.name = .ok w := by
  have htargets : ∀ f ∈ swipe.fields, f.schema ≠ .locator := by
    simp [fields, schema, Schema.objectFields?, Field.optional, Field.describe, Field.plain,
      Field.schema]
  rw [normalize_ok_iff, and_iff_left fun f hf _ hschema => absurd hschema (htargets f hf)]

end StandardAction

namespace SwipeParams

/-- The parameters of a swipe that say where it ends may be absent. -/
theorem exists_field_of_mem {name : String} (h : name ∈ ["end", "direction", "distance"]) :
    ∃ f ∈ StandardAction.swipe.fields, f.name = name ∧ ∃ inner, f.schema = .optional inner := by
  simp only [List.mem_cons, List.not_mem_nil, or_false] at h
  rcases h with rfl | rfl | rfl
  · exact ⟨_, .tail _ (.head _), rfl, _, rfl⟩
  · exact ⟨_, .tail _ (.tail _ (.head _)), rfl, _, rfl⟩
  · exact ⟨_, .tail _ (.tail _ (.tail _ (.head _))), rfl, _, rfl⟩

theorem Endless.congr {fs gs : Object} (h : Endless fs)
    (hsame : ∀ f ∈ StandardAction.swipe.fields, given f.name gs = given f.name fs) :
    Endless gs := by
  have hnames : ∀ name ∈ ["end", "direction", "distance"], given name gs = given name fs := by
    intro name hname
    obtain ⟨f, hf, rfl, -⟩ := exists_field_of_mem hname
    exact hsame f hf
  unfold Endless at h ⊢
  rwa [hnames "end" (by simp), hnames "distance" (by simp), hnames "direction" (by simp)]

/-- The check does not say where a swipe ends if its parameters do not. -/
theorem Endless.normalized {param : Object} {v : Value} (h : Endless param)
    (hnormalize : (Action.standard .swipe).normalize (.obj param) = .ok v) :
    ∃ fs, v = .obj fs ∧ Endless fs := by
  have hmissing : ∀ name ∈ ["end", "direction", "distance"], given name param = false →
      given name (Field.entries (Field.parameter? param) StandardAction.swipe.fields) = false := by
    intro name hname hgiven
    obtain ⟨f, hf, rfl, inner, hschema⟩ := exists_field_of_mem hname
    exact Schema.not_given_entries (StandardAction.nodup_fields .swipe) hf hschema hgiven
  refine ⟨_, StandardAction.normalize_ok hnormalize, hmissing _ (by simp) h.1, h.2.imp ?_ ?_⟩
  · exact hmissing _ (by simp)
  · exact hmissing _ (by simp)

end SwipeParams

namespace Step

open Item (resultName?)

variable {registry : Registry} {item : Item} {key : String}

/-- A standard action is called with its parameters as they are in the options, but for the full
form of targets. The warnings are those of the split. -/
theorem callWith_standard (a : StandardAction) (prompt : Option Prompt) (options : Object) :
    ∃ param, callWith (.standard a) prompt options = (do
        let _ ← Locator.split prompt options (ownKeys (.standard a))
        callOf (.standard a) (.obj param)) ∧
      ∀ f ∈ a.fields, f.name ≠ "locate" → get? f.name param =
        if f.locatable then (get? f.name options).map Locator.inFull
        else get? f.name options := by
  unfold callWith
  generalize hsplit : Locator.split prompt options (ownKeys (.standard a)) = split
  have hrest : ∀ f ∈ a.fields, f.name ≠ "locate" →
      get? f.name split.value.rest = get? f.name options := by
    intro f hf hlocate
    have hname := a.name_not_mem f.name (List.mem_map_of_mem hf)
    rw [← hsplit]
    show get? f.name (Fields.without _ options) = _
    rw [Fields.get?_without, if_neg]
    intro hmem
    simp only [List.cons_append, List.mem_cons, hlocate, false_or] at hmem
    rcases List.mem_append.mp hmem with hused | hown
    · split at hused
      · exact hname (List.mem_append_left _ hused)
      · cases hused
    · exact hname (List.mem_append_right _ hown)
  obtain ⟨warnings, locator, rest⟩ := split
  obtain ⟨param, hparam, hget⟩ := get?_canonicalTargets a.otherTargets rest
  refine ⟨locator.elim param fun l => Fields.insert "locate" l.toValue param, ?_,
    fun f hf hlocate => ?_⟩
  · show ((liftM (⟨warnings, ⟨locator, rest⟩⟩ : Logged Locator.Split) : Checked _) >>= fun _ =>
      (liftM (canonicalTargets a.otherTargets rest) : Checked Object) >>= _) = _
    rw [hparam]
    cases locator <;> rfl
  · have hfinal : get? f.name (locator.elim param fun l =>
        Fields.insert "locate" l.toValue param) = get? f.name param := by
      cases locator with
      | none => rfl
      | some l => exact (Fields.get?_insert ..).trans (if_neg (Ne.symm hlocate))
    rw [hfinal, hget, hrest f hf hlocate]
    exact if_congr (StandardAction.mem_otherTargets hf hlocate) rfl rfl

/-- A step for a standard action under one of its keys is the call with what the step gives. -/
theorem resolve_standard {a : StandardAction}
    (hmatching : registry.matching item = [(.standard a, key)])
    (hrule : ruleOf? registry item = some .action) :
    let options := ownOptions (Value.ofOption (get? key item)) item
    ∃ param, (resolve registry item).run.value =
        (callOf (.standard a) (.obj param)).run.value.map
          (fun command => ⟨.action, resultName? item, command⟩) ∧
      ∀ f ∈ a.fields, f.name ≠ "locate" → given f.name param = given f.name options ∧
        (f.locatable = false → get? f.name param = get? f.name options) := by
  intro options
  obtain ⟨param, hparam, hfields⟩ :=
    callWith_standard a (ownPrompt (Value.ofOption (get? key item))) options
  refine ⟨param, ?_, fun f hf hlocate => ?_⟩
  rotate_left
  · have hget := hfields f hf hlocate
    cases hlocatable : f.locatable with
    | true =>
      rw [hlocatable, if_pos rfl] at hget
      exact ⟨given_inFull hget, nofun⟩
    | false =>
      rw [hlocatable, if_neg nofun] at hget
      exact ⟨by rw [given, given, hget], fun _ => hget⟩
  have hbuild : build registry item .action =
      callWith (.standard a) (ownPrompt (Value.ofOption (get? key item))) options := by
    show buildAction registry item = _
    simp only [buildAction, hmatching]
    rw [buildCall_eq, ownCall_of_not_bare a.not_acceptsBareString]
  rw [resolve_of_ruleOf? hrule, hbuild, hparam]
  generalize callOf (.standard a) (.obj param) = call
  obtain ⟨warnings, value⟩ := call
  cases value <;> rfl

end Step

end Runbook
