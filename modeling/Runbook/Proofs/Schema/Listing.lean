/-
What a tool listing says of absent fields, and what a check does.

Both go down the layers of a schema to its core: the listing to see whether the field is required,
the check to see what absence comes to. They part in three places. At a union the listing always
says required, while the check asks the members. Past a chain the listing is done, while the check
hands on what the first schema has made of absence. And the listing shows the outermost default
there is, also one that lies behind the core, where an optional layer has let absence pass before.
-/
import Runbook.Proofs.Schema.Fieldwise
import Runbook.Proofs.Schema.Paths
import Runbook.Schema.Describe

namespace Runbook

open Fields (get? keys)

/-! ## Reading a listing -/

/-- A listing says that a field is required. -/
def Value.Requires (listing : Value) (name : String) : Prop :=
  ∃ names, listing.field? "required" = some (.arr names) ∧ .str name ∈ names

/-- A listing shows a default for a field. -/
def Value.ShowsDefault (listing : Value) (name : String) (d : Value) : Prop :=
  ∃ properties property, listing.field? "properties" = some properties ∧
    properties.field? name = some property ∧ property.field? "default" = some d

namespace Schema

/-! ## The layers -/

/-- The schema behind the layers that hand absence on as it is. -/
def core : Schema → Schema
  | .nullable inner | .preprocessed inner _ | .pipe inner _ => inner.core
  | s => s

/-- Whether a chain is among the layers around the core. -/
def chained : Schema → Bool
  | .nullable inner | .preprocessed inner _ => inner.chained
  | .pipe _ _ => true
  | _ => false

/-- The layers around the core let the value through as it is. -/
def Passes (v : Value) : Schema → Prop
  | .nullable inner => v ≠ .null ∧ inner.Passes v
  | .preprocessed inner step => step v = v ∧ inner.Passes v
  | .pipe first _ => first.Passes v
  | _ => True

/-- The default that a listing shows. -/
def shownDefault? : Schema → Option Value
  | .withDefault _ d => some d
  | .optional inner | .nullable inner | .preprocessed inner _ | .pipe inner _ =>
    inner.shownDefault?
  | _ => none

mutual

/-- Whether every declared default is accepted by the schema it wraps. -/
def defaultsFit : Schema → Bool
  | .withDefault inner d => (inner.parse (some d) "").isOk && inner.defaultsFit
  | .array inner | .optional inner | .nullable inner | .preprocessed inner _ => inner.defaultsFit
  | .pipe first second => first.defaultsFit && second.defaultsFit
  | .union members => membersFit members
  | .object fields => fieldsFit fields
  | _ => true

def membersFit : List Schema → Bool
  | [] => true
  | s :: rest => s.defaultsFit && membersFit rest

def fieldsFit : List Field → Bool
  | [] => true
  | .mk _ schema _ _ :: rest => schema.defaultsFit && fieldsFit rest

end

variable {s : Schema} {path name : String} {d : Value} {fields : List Field} {f : Field}
  {fs : Object}

/-! ## What absence comes to -/

/-- A required schema that is no choice refuses absence, whatever it is a chain of. -/
theorem absent_refused : ∀ {s : Schema}, s.isRequired = true →
    (∀ members, s.core ≠ .union members) → ∃ e, s.parse none path = .error e
  | .nullable inner, hs, hcore | .preprocessed inner _, hs, hcore =>
    absent_refused (s := inner) hs hcore
  | .pipe first _, hs, hcore => by
    have hfirst : ∃ e, first.parse none path = .error e := absent_refused hs hcore
    obtain ⟨e, he⟩ := hfirst
    exact ⟨e, by rw [parse_pipe, he]; rfl⟩
  | .union members, _, hcore => absurd rfl (hcore members)
  | .string, _, _ | .number, _, _ | .integer, _, _ | .boolean, _, _ | .any, _, _
  | .locator, _, _ | .enumeration _, _, _ | .array _, _, _ | .object _, _, _ => ⟨_, rfl⟩

/-- A schema that is not required and no chain accepts absence. -/
theorem absent_accepted : ∀ {s : Schema}, s.isRequired = false → s.chained = false →
    s.defaultsFit = true → ∃ w, s.parse none path = .ok w
  | .nullable inner, hs, hchained, hfit | .preprocessed inner _, hs, hchained, hfit =>
    absent_accepted (s := inner) hs hchained hfit
  | .optional _, _, _, _ => ⟨none, rfl⟩
  | .withDefault inner d, _, _, hfit => by
    simp only [defaultsFit, Bool.and_eq_true] at hfit
    cases hw : inner.parse (some d) "" with
    | ok w => exact ⟨w, parse_ok_at hw path⟩
    | error e => simp [hw, Except.isOk, Except.toBool] at hfit

/-- A default that gets to the core is what absence comes to, unless the core lets absence pass. -/
theorem absent_eq_default : ∀ {s : Schema}, s.shownDefault? = some d → s.Passes d →
    (∀ inner, s.core ≠ .optional inner) → s.parse none path = s.parse (some d) path
  | .nullable inner, hd, hpasses, hcore => by
    have hinner : inner.parse none path = inner.parse (some d) path :=
      absent_eq_default hd hpasses.2 hcore
    have hnull := hpasses.1
    simp only [parse_nullable]
    rw [hinner]
    split
    · next heq => exact absurd (Option.some.inj heq) hnull
    · rfl
  | .preprocessed inner step, hd, hpasses, hcore => by
    have hinner : inner.parse none path = inner.parse (some d) path :=
      absent_eq_default hd hpasses.2 hcore
    simpa only [parse_preprocessed, Option.map_none, Option.map_some, hpasses.1] using hinner
  | .pipe first _, hd, hpasses, hcore => by
    have hfirst : first.parse none path = first.parse (some d) path :=
      absent_eq_default hd hpasses hcore
    simp only [parse_pipe, hfirst]
  | .withDefault inner d', hd, _, _ => by
    cases hd
    rfl
  | .optional inner, _, _, hcore => absurd rfl (hcore inner)

/-- An optional core lets absence pass, also where a default is behind it. -/
theorem absent_of_optional : ∀ {s inner : Schema}, s.core = .optional inner →
    s.chained = false → s.parse none path = .ok none
  | .nullable inner, _, hcore, hchained | .preprocessed inner _, _, hcore, hchained =>
    absent_of_optional (s := inner) hcore hchained
  | .optional _, _, _, _ => rfl

/-! ## What is listed -/

theorem field?_annotate (key : String) (note : Value) (fs : Object) (name : String) :
    (annotate key note (.obj fs)).field? name = if key = name then some note else get? name fs :=
  Fields.get?_insert ..

/-- Descriptions are objects, with the default under its key. -/
theorem describe_default : ∀ s : Schema,
    ∃ fs, s.describe = .obj fs ∧ get? "default" fs = s.shownDefault?
  | .optional inner | .preprocessed inner _ | .pipe inner _ => describe_default inner
  | .nullable inner => by
    obtain ⟨fs, hfs, hdefault⟩ := describe_default inner
    refine ⟨_, by rw [describe, hfs]; rfl, ?_⟩
    rw [Fields.get?_insert, if_neg (by decide), hdefault]
    rfl
  | .withDefault inner d => by
    obtain ⟨fs, hfs, -⟩ := describe_default inner
    refine ⟨_, by rw [describe, hfs]; rfl, ?_⟩
    rw [Fields.get?_insert, if_pos rfl]
    rfl
  | .string | .number | .integer | .boolean | .any | .locator | .enumeration _ | .array _
  | .object _ | .union _ => ⟨_, rfl, rfl⟩

/-- The description of a field. -/
def property (f : Field) : Value :=
  match f.description with
  | some text => annotate "description" (.str text) f.schema.describe
  | none => f.schema.describe

theorem property_default (f : Field) :
    (property f).field? "default" = f.schema.shownDefault? := by
  obtain ⟨fs, hfs, hdefault⟩ := describe_default f.schema
  unfold property
  cases f.description with
  | none => rw [hfs, ← hdefault]; rfl
  | some text => rw [hfs, field?_annotate, if_neg (by decide), hdefault]

theorem describeFields_cons (f : Field) (rest : List Field) (out : Object) :
    describeFields (f :: rest) out =
      describeFields rest (Fields.insert f.name (property f) out) := by
  obtain ⟨name, schema, description, loc⟩ := f
  cases description <;> rfl

theorem get?_describeFields_off {out : Object} (h : name ∉ fields.map Field.name) :
    get? name (describeFields fields out) = get? name out := by
  induction fields generalizing out with
  | nil => rfl
  | cons f rest ih =>
    simp only [List.map_cons, List.mem_cons, not_or] at h
    rw [describeFields_cons, ih h.2, Fields.get?_insert, if_neg (Ne.symm h.1)]

theorem get?_describeFields {out : Object} (hnames : (fields.map Field.name).Nodup)
    (hf : f ∈ fields) : get? f.name (describeFields fields out) = some (property f) := by
  induction fields generalizing out with
  | nil => cases hf
  | cons g rest ih =>
    simp only [List.map_cons, List.nodup_cons] at hnames
    rw [describeFields_cons]
    rcases List.mem_cons.mp hf with rfl | hf
    · rw [get?_describeFields_off hnames.1, Fields.get?_insert, if_pos rfl]
    · exact ih hnames.2 hf

theorem mem_requiredNames :
    .str name ∈ requiredNames fields ↔ ∃ f ∈ fields, f.name = name ∧ f.schema.isRequired := by
  induction fields with
  | nil => simp [requiredNames]
  | cons f rest ih =>
    obtain ⟨name', schema, description, loc⟩ := f
    rw [requiredNames]
    split
    · next hrequired =>
      simp [ih, Field.name, Field.schema, hrequired, eq_comm (a := name)]
    · next hrequired => simp [ih, Field.name, Field.schema, hrequired]

theorem requires_iff (hnames : (fields.map Field.name).Nodup) (hf : f ∈ fields) :
    (Schema.object fields).describe.Requires f.name ↔ f.schema.isRequired = true := by
  have hlisted : (Schema.object fields).describe.Requires f.name ↔
      .str f.name ∈ requiredNames fields := by
    constructor
    · rintro ⟨names, hnames, hmem⟩
      cases hnames
      exact hmem
    · exact fun hmem => ⟨_, rfl, hmem⟩
  rw [hlisted, mem_requiredNames]
  constructor
  · rintro ⟨g, hg, hname, hrequired⟩
    rwa [← List.inj_on_of_nodup_map hnames hg hf hname]
  · exact fun hrequired => ⟨f, hf, rfl, hrequired⟩

theorem showsDefault_iff (hnames : (fields.map Field.name).Nodup) (hf : f ∈ fields) :
    (Schema.object fields).describe.ShowsDefault f.name d ↔ f.schema.shownDefault? = some d := by
  have hproperty : get? f.name (describeFields fields []) = some (property f) :=
    get?_describeFields hnames hf
  rw [← property_default]
  constructor
  · rintro ⟨properties, p, hproperties, hp, hd⟩
    cases hproperties
    cases hproperty.symm.trans hp
    exact hd
  · exact fun hd => ⟨_, _, rfl, hproperty, hd⟩

/-! ## The listing and the check -/

theorem fieldsFit_mem : ∀ {fields : List Field}, fieldsFit fields = true → f ∈ fields →
    f.schema.defaultsFit = true
  | .mk _ schema _ _ :: rest, hfit, hf => by
    simp only [fieldsFit, Bool.and_eq_true] at hfit
    rcases List.mem_cons.mp hf with rfl | hf
    · exact hfit.1
    · exact fieldsFit_mem hfit.2 hf

/-- The check of an object where all fields but one are fine is as the check of that one. -/
theorem parse_object_of_others (hnames : (fields.map Field.name).Nodup) (hf : f ∈ fields)
    (hothers : ∀ g ∈ fields, g.name ≠ f.name → ∃ w, g.check fs path = .ok w) :
    let outcome := (Schema.object fields).parse (some (.obj fs)) path
    ((∃ e, outcome = .error e) ↔ ∃ e, f.check fs path = .error e) ∧
      ∀ w, f.check fs path = .ok w →
        ∃ out, outcome = .ok (some (.obj out)) ∧ get? f.name out = w := by
  intro outcome
  have houtcome : outcome = ((Field.collect (Field.check fs path) fields).map .obj).map some := by
    simp only [outcome, parse_object, present, parseFields_eq_collect hnames]
  have hfine : ∀ w, f.check fs path = .ok w →
      ∃ out, outcome = .ok (some (.obj out)) ∧ get? f.name out = w := by
    intro w hw
    have hall : ∀ g ∈ fields, g.check fs path = .ok (g.check fs path).toOption.join := by
      intro g hg
      by_cases hname : g.name = f.name
      · rw [List.inj_on_of_nodup_map hnames hg hf hname, hw]
        rfl
      · obtain ⟨x, hx⟩ := hothers g hg hname
        rw [hx]
        rfl
    refine ⟨_, by rw [houtcome, Field.collect_of_ok hall]; rfl, ?_⟩
    rw [Field.get?_entries hnames hf, hw]
    rfl
  refine ⟨⟨?_, ?_⟩, hfine⟩
  · rintro ⟨e, he⟩
    cases hw : f.check fs path with
    | error e' => exact ⟨e', rfl⟩
    | ok w =>
      obtain ⟨out, hout, -⟩ := hfine w hw
      cases he.symm.trans hout
  · rintro ⟨e, he⟩
    rw [houtcome]
    cases hout : Field.collect (Field.check fs path) fields with
    | error e' => exact ⟨e', rfl⟩
    | ok out => cases he.symm.trans (Field.each_of_collect_ok hout f hf)

/-- **Absent fields, in a listing and in a check**, whatever the functions are that are applied
before a check. The fields have names of their own, every declared default is accepted by the schema
it wraps, and an object lacks one field while the others are fine. Then the object is refused if and
only if the field's own schema refuses absence, and else the field comes to what that answers.

A field that is listed as required is refused, unless alternatives are at its core. A field whose
absence is refused is listed as required, unless it is a chain. If a default is listed for a field,
its absence comes to what the default comes to, as far as the layers let it through to the core;
but if the core is optional and the field is no chain, the field is left out. -/
theorem absence_listed {fields : List Field} (hnames : (fields.map Field.name).Nodup)
    (hfit : (Schema.object fields).defaultsFit = true) (path : String) (fs : Object) {f : Field}
    (hf : f ∈ fields) (habsent : get? f.name fs = none)
    (hothers : ∀ g ∈ fields, g.name ≠ f.name → ∃ w, g.check fs path = .ok w) :
    let listing := (Schema.object fields).describe
    let outcome := (Schema.object fields).parse (some (.obj fs)) path
    let alone := fun v => f.schema.parse v (fieldPath path f.name)
    ((∃ e, outcome = .error e) ↔ ∃ e, alone none = .error e) ∧
      (∀ w, alone none = .ok w → ∃ out, outcome = .ok (some (.obj out)) ∧ get? f.name out = w) ∧
      (listing.Requires f.name → (∀ members, f.schema.core ≠ .union members) →
        ∃ e, outcome = .error e) ∧
      ((∃ e, outcome = .error e) → f.schema.chained = false → listing.Requires f.name) ∧
      ∀ d, listing.ShowsDefault f.name d →
        ((∀ inner, f.schema.core ≠ .optional inner) → f.schema.Passes d →
          alone none = alone (some d)) ∧
        ∀ inner, f.schema.core = .optional inner → f.schema.chained = false →
          alone none = .ok none := by
  intro listing outcome alone
  obtain ⟨hfails, hfine⟩ := parse_object_of_others hnames hf hothers
  have halone : f.check fs path = alone none := by
    rw [Field.check, habsent]
  rw [halone] at hfails hfine
  refine ⟨hfails, hfine, fun hrequires hcore => ?_, fun herror hchained => ?_, fun d hd => ?_⟩
  · exact hfails.mpr (absent_refused ((requires_iff hnames hf).mp hrequires) hcore)
  · by_contra hlisted
    have hrequired : f.schema.isRequired = false :=
      Bool.eq_false_iff.mpr (mt (requires_iff hnames hf).mpr hlisted)
    obtain ⟨w, hw⟩ := absent_accepted hrequired hchained (fieldsFit_mem hfit hf)
    obtain ⟨e, he⟩ := hfails.mp herror
    cases he.symm.trans hw
  · have hshown := (showsDefault_iff hnames hf).mp hd
    exact ⟨fun hcore hpasses => absent_eq_default hshown hpasses hcore,
      fun inner hcore hchained => absent_of_optional hcore hchained⟩

/-- A reminder: a text, a time that has a default, a tone that is a text or an optional number, and
a count whose default is behind an optional layer. -/
def reminder : List Field :=
  [.plain "text" .string, .plain "after" (.withDefault .integer (.ofNat 300)),
    .plain "tone" (.union [.string, .optional .number]),
    .plain "times" (.optional (.withDefault .number (.ofNat 1)))]

/-- Of a reminder with a text only, the time is filled in, the tone is listed as required and is not
missed, and the count is left out for all its default. -/
theorem absence_listed_reminder :
    let listing := (Schema.object reminder).describe
    let fs : Object := [("text", .str "tea")]
    listing.ShowsDefault "after" (.ofNat 300) ∧ listing.Requires "tone" ∧
      listing.ShowsDefault "times" (.ofNat 1) ∧
      ∃ out, (Schema.object reminder).parse (some (.obj fs)) "" = .ok (some (.obj out)) ∧
        get? "after" out = some (.ofNat 300) ∧ get? "times" out = none := by
  intro listing fs
  have hnames : (reminder.map Field.name).Nodup := by decide
  have hfit : (Schema.object reminder).defaultsFit = true := rfl
  have hfine : ∀ g ∈ reminder, ∃ w, g.check fs "" = .ok w := by
    simp only [reminder, List.forall_mem_cons]
    exact ⟨⟨_, rfl⟩, ⟨_, rfl⟩, ⟨_, rfl⟩, ⟨_, rfl⟩, nofun⟩
  have hafter : listing.ShowsDefault "after" (.ofNat 300) := ⟨_, _, rfl, rfl, rfl⟩
  have htone : listing.Requires "tone" := ⟨[.str "text", .str "tone"], rfl, by simp⟩
  have htimes : listing.ShowsDefault "times" (.ofNat 1) := ⟨_, _, rfl, rfl, rfl⟩
  obtain ⟨-, hfilled, -, -, hdefault⟩ := absence_listed hnames hfit "" fs
    (f := .plain "after" (.withDefault .integer (.ofNat 300))) (by simp [reminder]) rfl
    fun g hg _ => hfine g hg
  obtain ⟨-, hleft, -, -, hbehind⟩ := absence_listed hnames hfit "" fs
    (f := .plain "times" (.optional (.withDefault .number (.ofNat 1)))) (by simp [reminder]) rfl
    fun g hg _ => hfine g hg
  obtain ⟨out, hout, hvalue⟩ := hfilled _ ((hdefault _ hafter).1 nofun trivial)
  obtain ⟨out', hout', hnone⟩ := hleft _ ((hbehind _ htimes).2 _ rfl rfl)
  cases hout.symm.trans hout'
  exact ⟨hafter, htone, htimes, out, hout, hvalue, hnone⟩

end Schema

end Runbook
