/-
What a schema lets through.

Conformance is a relation between schemas and values that says nothing of checking: a leaf has the
kind of value it names, an object has declared keys only, in their order. A check answers values
that conform, and absence only where an optional layer is in reach (`parse_sound`), whatever the
functions are that are applied before a check.

A check never looks behind a layer at the value it was given, so the induction is on the schema
alone, and what is shown of a layer is shown for every value and every path.
-/
import Runbook.Action
import Runbook.Proofs.Schema.Accepted

namespace Runbook

open Fields (get?)

/-- An object without some of its entries; any other value as it is. -/
def Value.off (names : List String) : Value → Value
  | .obj fs => .obj (Fields.without names fs)
  | v => v

namespace Schema

/-! ## Conformance -/

mutual

/-- Whether the fields of every object of the schema have names of their own. -/
def distinctNames : Schema → Bool
  | .object fields => decide (fields.map Field.name).Nodup && fieldsDistinct fields
  | .array inner | .optional inner | .nullable inner | .withDefault inner _
  | .preprocessed inner _ => inner.distinctNames
  | .pipe first second => first.distinctNames && second.distinctNames
  | .union members => membersDistinct members
  | _ => true

def fieldsDistinct : List Field → Bool
  | [] => true
  | .mk _ schema _ _ :: rest => schema.distinctNames && fieldsDistinct rest

def membersDistinct : List Schema → Bool
  | [] => true
  | s :: rest => s.distinctNames && membersDistinct rest

end

/-- An optional layer is in reach, no array or object being crossed. Of a chain the second schema
decides. -/
inductive Omissible : Schema → Prop
  | optional {inner : Schema} : Omissible (.optional inner)
  | nullable {inner : Schema} (h : inner.Omissible) : Omissible (.nullable inner)
  | withDefault {inner : Schema} {d : Value} (h : inner.Omissible) :
      Omissible (.withDefault inner d)
  | preprocessed {inner : Schema} {step : Value → Value} (h : inner.Omissible) :
      Omissible (.preprocessed inner step)
  | pipe {first second : Schema} (h : second.Omissible) : Omissible (.pipe first second)
  | member {members : List Schema} {s : Schema} (hmem : s ∈ members) (h : s.Omissible) :
      Omissible (.union members)

/-- A value conforms to a schema. `absent` has the schemas that may come out absent: of these a
field is left out, and an item is `null`. -/
inductive Conforms (absent : Schema → Prop) : Schema → Value → Prop
  | string {t : String} : Conforms absent .string (.str t)
  | number {n : Number} : Conforms absent .number (.num n)
  | integer {n : UInt64} : Conforms absent .integer (.num (.nat n))
  | boolean {b : Bool} : Conforms absent .boolean (.bool b)
  | any {v : Value} : Conforms absent .any v
  | prompt {t : String} : Conforms absent .locator (.str t)
  | target {fs : Object} : Conforms absent .locator (.obj fs)
  | enumeration {names : List String} {t : String} (hmem : t ∈ names) :
      Conforms absent (.enumeration names) (.str t)
  | array {item : Schema} {ws : List (Option Value)}
      (hpresent : ∀ v, some v ∈ ws → Conforms absent item v)
      (hmissing : none ∈ ws → absent item) :
      Conforms absent (.array item) (.arr (ws.map Value.ofOption))
  | object {fields : List Field} {fs : Object}
      (hkeys : (Fields.keys fs).Sublist (fields.map Field.name))
      (hpresent : ∀ f ∈ fields, ∀ v, get? f.name fs = some v → Conforms absent f.schema v)
      (hmissing : ∀ f ∈ fields, get? f.name fs = none → absent f.schema) :
      Conforms absent (.object fields) (.obj fs)
  | optional {inner : Schema} {v : Value} (h : Conforms absent inner v) :
      Conforms absent (.optional inner) v
  | null {inner : Schema} : Conforms absent (.nullable inner) .null
  | nullable {inner : Schema} {v : Value} (h : Conforms absent inner v) :
      Conforms absent (.nullable inner) v
  | withDefault {inner : Schema} {d v : Value} (h : Conforms absent inner v) :
      Conforms absent (.withDefault inner d) v
  | preprocessed {inner : Schema} {step : Value → Value} {v : Value}
      (h : Conforms absent inner v) : Conforms absent (.preprocessed inner step) v
  | pipe {first second : Schema} {v : Value} (h : Conforms absent second v) :
      Conforms absent (.pipe first second) v
  | member {members : List Schema} {s : Schema} {v : Value} (hmem : s ∈ members)
      (h : Conforms absent s v) : Conforms absent (.union members) v

/-- What a check may answer: a value that conforms, or absence where a layer allows it. -/
def Permits (absent : Schema → Prop) (s : Schema) : Option Value → Prop
  | some v => Conforms absent s v
  | none => s.Omissible

theorem Permits.imp {absent : Schema → Prop} {s s' : Schema} {w : Option Value}
    (h : s.Permits absent w) (hv : ∀ v, Conforms absent s v → Conforms absent s' v)
    (hnone : s.Omissible → s'.Omissible) : s'.Permits absent w := by
  cases w with
  | none => exact hnone h
  | some v => exact hv v h

/-- Some check of the schema succeeds with nothing. -/
def Vanishes (s : Schema) : Prop := ∃ v path, s.parse v path = .ok none

variable {v w : Option Value} {path : String}

/-! ## Soundness -/

/-- A leaf answers a value that is there and has the kind of the leaf. -/
theorem permits_of_present {absent : Schema → Prop} {s : Schema} {check : Value → Parsed Value}
    (hcheck : ∀ x y, check x = .ok y → Conforms absent s y) (h : present path check v = .ok w) :
    s.Permits absent w := by
  obtain ⟨x, y, -, hxy, rfl⟩ := present_ok h
  exact hcheck x y hxy

mutual

theorem parse_permits : ∀ {s : Schema}, s.distinctNames →
    ∀ {v w : Option Value} {path : String}, s.parse v path = .ok w → s.Permits Vanishes w
  | .optional inner, hs, v, w, path, h => by
    simp only [distinctNames] at hs
    simp only [parse_optional] at h
    split at h
    · cases h; exact .optional
    · cases h; exact .optional
    · exact (parse_permits hs h).imp (fun _ => .optional) fun _ => .optional
  | .nullable inner, hs, v, w, path, h => by
    simp only [distinctNames] at hs
    simp only [parse_nullable] at h
    split at h
    · cases h; exact .null
    · exact (parse_permits hs h).imp (fun _ => .nullable) .nullable
  | .withDefault inner d, hs, v, w, path, h => by
    simp only [distinctNames] at hs
    simp only [parse_withDefault] at h
    exact (parse_permits hs h).imp (fun _ => .withDefault) .withDefault
  | .preprocessed inner _, hs, v, w, path, h => by
    simp only [distinctNames] at hs
    simp only [parse_preprocessed] at h
    exact (parse_permits hs h).imp (fun _ => .preprocessed) .preprocessed
  | .pipe first second, hs, v, w, path, h => by
    simp only [distinctNames, Bool.and_eq_true] at hs
    obtain ⟨between, -, h⟩ := bind_ok h
    exact (parse_permits hs.2 h).imp (fun _ => .pipe) .pipe
  | .union members, hs, v, w, path, h => by
    simp only [distinctNames] at hs
    simp only [parse_union] at h
    obtain ⟨s, hmem, hmember⟩ := parseMembers_ok h
    exact (member_permits hs hmem hmember).imp (fun _ => .member hmem) (.member hmem)
  | .array item, hs, v, w, path, h => by
    simp only [distinctNames] at hs
    simp only [parse_array] at h
    refine permits_of_present (fun x y hxy => ?_) h
    cases x with
    | arr vs =>
      obtain ⟨ws, hitems, rfl⟩ := map_ok hxy
      obtain ⟨rs, rfl, hrs⟩ := parseItems_ok hitems
      refine .array (fun y hy => ?_) fun hnone => ?_
      · obtain ⟨v, -, p, hp⟩ := hrs _ hy
        exact parse_permits hs hp
      · obtain ⟨v, -, p, hp⟩ := hrs _ hnone
        exact ⟨_, p, hp⟩
    | _ => cases hxy
  | .object fields, hs, v, w, path, h => by
    simp only [distinctNames, Bool.and_eq_true, decide_eq_true_eq] at hs
    simp only [parse_object] at h
    refine permits_of_present (fun x y hxy => ?_) h
    cases x with
    | obj fs =>
      obtain ⟨out, hout, rfl⟩ := map_ok hxy
      refine .object (parseFields_keys hout hs.1) (fun f hf y hy => ?_) fun f hf hnone => ?_
      · have hp := parseFields_ok hout hs.1 hf rfl
        rw [hy] at hp
        exact field_permits hs.2 hf hp
      · have hp := parseFields_ok hout hs.1 hf rfl
        rw [hnone] at hp
        exact ⟨_, _, hp⟩
    | _ => cases hxy
  | .string, _, _, _, _, h => by
    obtain ⟨t, rfl⟩ := string_ok h
    exact .string
  | .number, _, _, _, _, h => by
    obtain ⟨n, rfl⟩ := number_ok h
    exact .number
  | .integer, _, _, _, _, h => by
    obtain ⟨n, -, rfl⟩ := integer_ok h
    exact .integer
  | .enumeration names, _, _, _, _, h => by
    obtain ⟨t, ht, rfl⟩ := enumeration_ok h
    exact .enumeration ht
  | .boolean, _, _, _, _, h => by
    simp only [parse_boolean] at h
    exact permits_of_present (fun x y hxy => by cases x <;> cases hxy; exact .boolean) h
  | .any, _, _, _, _, h => by
    simp only [parse_any] at h
    exact permits_of_present (fun x y hxy => by cases hxy; exact .any) h
  | .locator, _, _, _, _, h => by
    simp only [parse_locator] at h
    refine permits_of_present (fun x y hxy => ?_) h
    cases x <;> cases hxy
    · exact .prompt
    · exact .target

theorem member_permits : ∀ {members : List Schema}, membersDistinct members →
    ∀ {s : Schema}, s ∈ members → ∀ {v w : Option Value} {path : String},
      s.parse v path = .ok w → s.Permits Vanishes w
  | t :: rest, hs, s, hmem, v, w, path, h => by
    simp only [membersDistinct, Bool.and_eq_true] at hs
    rcases List.mem_cons.mp hmem with heq | hmem
    · rw [heq] at h ⊢
      exact parse_permits hs.1 h
    · exact member_permits hs.2 hmem h

theorem field_permits : ∀ {fields : List Field}, fieldsDistinct fields →
    ∀ {f : Field}, f ∈ fields → ∀ {v w : Option Value} {path : String},
      f.schema.parse v path = .ok w → f.schema.Permits Vanishes w
  | .mk _ schema _ _ :: rest, hs, f, hmem, v, w, path, h => by
    simp only [fieldsDistinct, Bool.and_eq_true] at hs
    rcases List.mem_cons.mp hmem with heq | hmem
    · rw [heq] at h ⊢
      exact parse_permits hs.1 h
    · exact field_permits hs.2 hmem h

end

/-! ## Normalization -/

/-- Putting targets back changes nothing but targets. -/
theorem off_restore (names : List String) (fs : Object) (v : Value) :
    (restore (targets names fs) v).off names = v.off names := by
  cases v with
  | obj out =>
    exact congrArg Value.obj (Fields.without_merge fun key hkey => (mem_keys_targets.mp hkey).1)
  | _ => rfl

theorem normalize_permits {s : Schema} (hs : s.distinctNames) {p q : Value}
    (h : s.normalize p = .ok q) :
    ∃ w, s.Permits Vanishes w ∧ q.off s.locatorNames = (Value.ofOption w).off s.locatorNames := by
  have whole : ∀ v, (s.parse (some v) "").map Value.ofOption = .ok q →
      ∃ w, s.Permits Vanishes w ∧ q.off s.locatorNames = (Value.ofOption w).off s.locatorNames :=
    fun v hv => by
      obtain ⟨w, hw, rfl⟩ := map_ok hv
      exact ⟨w, parse_permits hs hw, rfl⟩
  cases p with
  | obj fs =>
    rw [normalize_obj] at h
    obtain ⟨w, hw, rfl⟩ := map_ok h
    exact ⟨w, parse_permits hs hw, off_restore _ fs _⟩
  | null => exact whole _ h
  | bool b => exact whole _ h
  | num n => exact whole _ h
  | str t => exact whole _ h
  | arr vs => exact whole _ h

/-- **What is accepted conforms.** Of a schema whose objects have distinct field names, a check
answers values that conform to it, and absence only where an optional layer is in reach, whatever
the functions are that its layers apply first. What an action with this schema receives has nothing
off the targets that a conforming value does not have: no undeclared key and no value of another
kind. -/
theorem parse_sound {s : Schema} (hs : s.distinctNames) :
    (∀ v path w, s.parse v path = .ok w → s.Permits Vanishes w) ∧
    ∀ (a : Action) (p q : Value), a.schema = some s → a.normalize p = .ok q →
      ∃ w, s.Permits Vanishes w ∧ q.off s.locatorNames = (Value.ofOption w).off s.locatorNames := by
  refine ⟨fun _ _ _ => parse_permits hs, fun a p q ha h => ?_⟩
  simp only [Action.normalize, ha] at h
  split at h
  · next hq => exact normalize_permits hs (h ▸ hq)
  · cases h

/-- A form with a target, a default, a text, a list with gaps, a choice, and a note that is read off
whatever is there. -/
def form : Schema :=
  .object [.target "at", .plain "count" (.withDefault .integer (.ofNat 1)),
    .plain "label" (.optional (.stringified .string)),
    .plain "sizes" (.array (.optional .number)),
    .plain "mode" (.union [.enumeration ["fast", "slow"], .pipe .any (.nullable .boolean)]),
    .plain "note" (.optional (.preprocessed .string fun v => .str v.compact))]

/-- The target is none, the default is filled in, the label is left out, a size is missing, the note
is the list as a text, and what the form does not declare is dropped. -/
theorem parse_sound_form :
    let a : Action := ⟨"Fill", none, "fills in a form", some form, .custom⟩
    let p : Object := [("mode", .null), ("sizes", .arr [.ofNat 3, .null]), ("at", .str "here"),
      ("note", .arr []), ("label", .null), ("extra", .bool true)]
    let q : Object := [("at", .str "here"), ("count", .ofNat 1),
      ("sizes", .arr [.ofNat 3, .null]), ("mode", .null), ("note", .str "[]")]
    form.distinctNames ∧ form.parse (some (.obj p)) "" = .ok (some (.obj q)) ∧
      a.normalize (.obj p) = .ok (.obj q) ∧ Conforms Vanishes form (.obj q) ∧
      ∃ w, form.Permits Vanishes w ∧
        (Value.obj q).off form.locatorNames = (Value.ofOption w).off form.locatorNames := by
  intro a p q
  have hs : form.distinctNames := rfl
  have hparse : form.parse (some (.obj p)) "" = .ok (some (.obj q)) := rfl
  have hnormalize : a.normalize (.obj p) = .ok (.obj q) := rfl
  obtain ⟨hpermits, haction⟩ := parse_sound hs
  exact ⟨hs, hparse, hnormalize, hpermits _ _ _ hparse, haction a _ _ rfl hnormalize⟩

end Schema

end Runbook
