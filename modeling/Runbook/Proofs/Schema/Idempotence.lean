/-
Checking once is enough.

What normalization answers, it answers again for its own answer. For objects the answers are
those that are `Settled`: declared keys in their order, under each a target or what the field's
schema leaves as it is. Every answer is settled (`normalize_settled`), and what is settled stays
(`Settled.normalize`).

That a schema leaves its own answers as they are is by induction on the schema (`parse_settles`).
It is not enough to know that of each layer by itself: an item that is absent comes back as
`null`, and an answer of `null` where there was none would be taken for absent by an optional
layer around it. So the induction carries both along.
-/
import Runbook.Proofs.Schema.Accepted
import Runbook.Proofs.Schema.Steps

namespace Runbook

open Fields (get?)

namespace Schema

/-! ## Schemas that settle -/

/-- An optional layer is on the chain of layers. -/
def skips : Schema → Bool
  | .optional _ => true
  | .nullable inner | .withDefault inner _ | .preprocessed inner _ => inner.skips
  | _ => false

mutual

/-- Schemas of which one check is enough if no function is applied but the one that writes scalars
out: no chains and no choices, names of their own for the fields of an object, defaults where
absence has no other meaning, and scalars written out for a text only. -/
def settling : Schema → Bool
  | .string | .number | .integer | .boolean | .any | .locator | .enumeration _ => true
  | .array inner | .optional inner | .nullable inner => inner.settling
  | .object fields => decide (fields.map Field.name).Nodup && fieldsSettling fields
  | .withDefault inner _ => inner.settling && !inner.skips
  | .preprocessed .string _ | .preprocessed (.enumeration _) _ => true
  | .preprocessed _ _ | .pipe _ _ | .union _ => false

def fieldsSettling : List Field → Bool
  | [] => true
  | .mk _ schema _ _ :: rest => schema.settling && fieldsSettling rest

end

/-- The schemas of targets. -/
def isTarget : Schema → Bool
  | .locator | .optional .locator => true
  | _ => false

/-- Whether the locatable fields of the object behind the layers have the schema of a target. -/
def targetsOnly (s : Schema) : Bool :=
  (s.objectFields?.getD []).all fun f => !f.locatable || f.schema.isTarget

variable {s : Schema} {fields : List Field} {fs gs : Object} {v w : Option Value} {path : String}

theorem targetsOnly_mem (hs : s.targetsOnly) (hfields : s.objectFields? = some fields) :
    ∀ f ∈ fields, f.locatable → f.schema.isTarget := by
  intro f hf hlocatable
  simp only [targetsOnly, hfields, Option.getD_some, List.all_eq_true] at hs
  simpa [hlocatable] using hs f hf

/-! ## One check after another -/

/-- What a check has answered, `w` for `v`, it answers again. -/
structure Settles (s : Schema) (path : String) (v w : Option Value) : Prop where
  again : s.parse w path = .ok w
  /-- Absence that has become `null` stays so. -/
  null : w = none → ∃ w', s.parse (some .null) path = .ok w' ∧ Value.ofOption w' = .null
  /-- Only `null` comes out as `null` or absent. -/
  there : ∀ x, v = some x → x ≠ .null → ∃ y, w = some y ∧ y ≠ .null
  notSkipped : s.skips = false → w ≠ none

theorem Settles.of_some {y : Value} (again : s.parse (some y) path = .ok (some y))
    (there : ∀ x, v = some x → x ≠ .null → y ≠ .null) : s.Settles path v (some y) where
  again := again
  null hnone := by cases hnone
  there x hv hx := ⟨y, rfl, there x hv hx⟩
  notSkipped _ hnone := by cases hnone

/-- As an item, the answer is left as it is. -/
theorem Settles.item (h : s.Settles path v w) :
    ∃ w', s.parse (some (Value.ofOption w)) path = .ok w' ∧
      Value.ofOption w' = Value.ofOption w := by
  cases w with
  | none => exact h.null rfl
  | some y => exact ⟨some y, h.again, rfl⟩

/-- A leaf that only looks at the value settles. -/
theorem settles_of_leaf {check : Value → Parsed Value}
    (hparse : ∀ v, s.parse v path = present path check v)
    (hcheck : ∀ x y, check x = .ok y → y = x) (h : s.parse v path = .ok w) :
    s.Settles path v w := by
  have hpresent := h
  rw [hparse] at hpresent
  obtain ⟨x, y, rfl, hxy, rfl⟩ := present_ok hpresent
  obtain rfl := hcheck x y hxy
  exact .of_some h fun z hz hnull => Option.some.inj hz ▸ hnull

theorem parseItems_again {check : Option Value → String → Parsed (Option Value)}
    (hcheck : ∀ v p w, check v p = .ok w → ∃ w', check (some (Value.ofOption w)) p = .ok w' ∧
      Value.ofOption w' = Value.ofOption w) {vs ws : List Value} {index : Nat}
    (h : parseItems check path vs index = .ok ws) : parseItems check path ws index = .ok ws := by
  induction vs generalizing ws index with
  | nil =>
    cases h
    rfl
  | cons v vs ih =>
    obtain ⟨r, hr, h⟩ := bind_ok h
    obtain ⟨others, hothers, h⟩ := bind_ok h
    cases h
    obtain ⟨r', hr', hsame⟩ := hcheck _ _ _ hr
    simp only [parseItems, bind, Except.bind, hr', ih hothers, hsame]

theorem string_settles (h : Schema.string.parse v path = .ok w) : Schema.string.Settles path v w :=
  settles_of_leaf (fun _ => parse_string)
    (fun x y hxy => by cases x <;> cases hxy; rfl) h

theorem enumeration_settles {names : List String}
    (h : (Schema.enumeration names).parse v path = .ok w) :
    (Schema.enumeration names).Settles path v w := by
  refine settles_of_leaf (fun _ => parse_enumeration names) (fun x y hxy => ?_) h
  split at hxy
  · split at hxy <;> cases hxy
    rfl
  · cases hxy

/-- Scalars that are written out come out as texts, and texts are left as they are. -/
theorem Settles.stringified (h : s.Settles path (v.map stringify) w)
    (htext : ∃ t, w = some (.str t)) : (Schema.stringified s).Settles path v w := by
  obtain ⟨t, rfl⟩ := htext
  refine .of_some ?_ fun _ _ _ => by simp
  simpa only [parse_preprocessed, Option.map_some, stringify] using h.again

mutual

/-- What a check answers, it answers again. -/
theorem parse_settles : ∀ (s : Schema), s.settling → s.OnlyStringifies →
    ∀ {v w : Option Value} {path : String}, s.parse v path = .ok w → s.Settles path v w
  | .optional inner, hs, hsteps, v, w, path, h => by
    simp only [settling] at hs
    rcases optional_ok h with ⟨hv, rfl⟩ | ⟨x, rfl, hx, hinner⟩
    · refine ⟨rfl, fun _ => ⟨none, rfl, rfl⟩, fun x hsome hx => ?_, nofun⟩
      rcases hv with rfl | rfl <;> cases hsome
      exact absurd rfl hx
    · have hsettles := parse_settles inner hs hsteps hinner
      obtain ⟨y, rfl, hy⟩ := hsettles.there x rfl hx
      refine .of_some ?_ fun _ _ _ => hy
      have hagain := hsettles.again
      cases y with
      | null => exact absurd rfl hy
      | _ => exact hagain
  | .nullable inner, hs, hsteps, v, w, path, h => by
    simp only [settling] at hs
    rcases nullable_ok h with ⟨rfl, rfl⟩ | hinner
    · refine .of_some rfl fun x hsome hx => ?_
      cases hsome
      exact absurd rfl hx
    · have hsettles := parse_settles inner hs hsteps hinner
      refine ⟨?_, fun _ => ⟨some .null, rfl, rfl⟩, hsettles.there, hsettles.notSkipped⟩
      rw [parse_nullable]
      split
      · rfl
      · exact hsettles.again
  | .withDefault inner d, hs, hsteps, v, w, path, h => by
    simp only [settling, Bool.and_eq_true, Bool.not_eq_true'] at hs
    have hsettles := parse_settles inner hs.1 hsteps (withDefault_ok h)
    have hsome := hsettles.notSkipped hs.2
    cases w with
    | none => exact absurd rfl hsome
    | some y =>
      refine .of_some hsettles.again fun x hv hx => ?_
      obtain ⟨y', hy', hnull⟩ := hsettles.there x (by rw [hv, Option.some_or]) hx
      exact Option.some.inj hy' ▸ hnull
  | .preprocessed .string _, hs, ⟨hstep, _⟩, v, w, path, h => by
    subst hstep
    have hinner := preprocessed_ok h
    exact (string_settles hinner).stringified (string_ok hinner)
  | .preprocessed (.enumeration names) _, hs, ⟨hstep, _⟩, v, w, path, h => by
    subst hstep
    have hinner := preprocessed_ok h
    obtain ⟨t, -, ht⟩ := enumeration_ok hinner
    exact (enumeration_settles hinner).stringified ⟨t, ht⟩
  | .array item, hs, hsteps, v, w, path, h => by
    simp only [settling] at hs
    have hchecked := h
    simp only [parse_array] at hchecked
    obtain ⟨x, y, rfl, hxy, rfl⟩ := present_ok hchecked
    cases x with
    | arr vs =>
      obtain ⟨ws, hitems, rfl⟩ := map_ok hxy
      refine .of_some ?_ fun _ _ _ => by simp
      have hagain :=
        parseItems_again (fun _ _ _ hr => (parse_settles item hs hsteps hr).item) hitems
      simp only [parse_array, present, hagain, Except.map]
    | _ => cases hxy
  | .object fields, hs, hsteps, v, w, path, h => by
    simp only [settling, Bool.and_eq_true, decide_eq_true_eq] at hs
    obtain ⟨fs, out, rfl, rfl, hout⟩ := object_ok h
    refine .of_some ?_ fun _ _ _ => by simp
    have hagain : parseFields fields out path [] = .ok out := by
      rw [← hout]
      refine parseFields_congr_of_parse fun f hf => ?_
      have hfield := parseFields_ok hout hs.1 hf rfl
      rw [hfield]
      exact field_settles fields hs.2 hsteps hf hfield
    simp only [parse_object, present, hagain, Except.map]
  | .string, _, _, _, _, _, h => string_settles h
  | .enumeration _, _, _, _, _, _, h => enumeration_settles h
  | .number, _, _, _, _, _, h =>
    settles_of_leaf (fun _ => parse_number) (fun x y hxy => by cases x <;> cases hxy; rfl) h
  | .integer, _, _, _, _, _, h =>
    settles_of_leaf (fun _ => parse_integer) (fun x y hxy => by split at hxy <;> cases hxy; rfl) h
  | .boolean, _, _, _, _, _, h =>
    settles_of_leaf (fun _ => parse_boolean) (fun x y hxy => by cases x <;> cases hxy; rfl) h
  | .any, _, _, _, _, _, h =>
    settles_of_leaf (fun _ => parse_any) (fun x y hxy => by cases hxy; rfl) h
  | .locator, _, _, _, _, _, h =>
    settles_of_leaf (fun _ => parse_locator) (fun x y hxy => by cases x <;> cases hxy <;> rfl) h

theorem field_settles : ∀ (fields : List Field), fieldsSettling fields →
    FieldsEachStep (· = stringify) fields → ∀ {f : Field}, f ∈ fields →
      ∀ {v w : Option Value} {path : String}, f.schema.parse v path = .ok w →
        f.schema.parse w path = .ok w
  | .mk _ schema _ _ :: rest, hs, hsteps, f, hf, v, w, path, h => by
    simp only [fieldsSettling, Bool.and_eq_true] at hs
    rcases List.mem_cons.mp hf with heq | hf
    · rw [heq] at h ⊢
      exact (parse_settles schema hs.1 hsteps.1 h).again
    · exact field_settles rest hs.2 hsteps.2 hf h

end

/-! ## Objects that stay as they are -/

/-- Under the name of a field is a target or what the field's schema leaves as it is. -/
def Stands (f : Field) (fs : Object) : Prop :=
  (f.locatable ∧ ∃ x, get? f.name fs = some x ∧ x ≠ .null) ∨
    f.schema.parse (get? f.name fs) f.name = .ok (get? f.name fs)

/-- Keys of fields only, in the order of the fields, and under each what stands there. -/
structure Settled (fields : List Field) (fs : Object) : Prop where
  keys : (Fields.keys fs).Sublist (fields.map Field.name)
  entries : ∀ f ∈ fields, Stands f fs

theorem parseFields_stand {path : String} : ∀ {fields : List Field} {out gs : Object},
    (fields.map Field.name).Nodup → (Fields.keys gs).Sublist (fields.map Field.name) →
      (∀ name ∈ fields.map Field.name, name ∉ Fields.keys out) →
        (∀ f ∈ fields, get? f.name gs = get? f.name fs) →
          (∀ f ∈ fields, f.schema.parse (get? f.name fs) (fieldPath path f.name) =
            .ok (get? f.name fs)) →
            parseFields fields fs path out = .ok (out ++ gs)
  | [], out, gs, _, hsub, _, _, _ => by
    obtain rfl : gs = [] := List.map_eq_nil_iff.mp (List.sublist_nil.mp hsub)
    rw [List.append_nil, parseFields_nil]
  | f :: rest, out, gs, hnames, hsub, hfresh, hget, hparse => by
    simp only [List.map_cons, List.nodup_cons] at hnames
    simp only [List.map_cons, List.mem_cons, forall_eq_or_imp] at hfresh hget hparse
    simp only [parseFields_cons, hparse.1, bind, Except.bind]
    rcases List.sublist_cons_iff.mp hsub with hsub | ⟨names, hkeys, hsub⟩
    · -- the field is missing
      have hnone : get? f.name gs = none :=
        Fields.get?_eq_none_iff.mpr fun hmem => hnames.1 (hsub.subset hmem)
      rw [← hget.1, hnone]
      exact parseFields_stand hnames.2 hsub hfresh.2 hget.2 hparse.2
    · cases gs with
      | nil => cases hkeys
      | cons e gs =>
        obtain ⟨key, x⟩ := e
        simp only [Fields.keys, List.map_cons, List.cons.injEq] at hkeys
        obtain ⟨rfl, rfl⟩ := hkeys
        have hx : get? f.name fs = some x := by rw [← hget.1, Fields.get?, if_pos rfl]
        rw [hx]
        dsimp only
        rw [Fields.insert_of_not_mem hfresh.1]
        have hrest : ∀ g ∈ rest, f.name ≠ g.name := fun g hg heq =>
          hnames.1 (heq ▸ List.mem_map_of_mem hg)
        refine (parseFields_stand hnames.2 hsub (fun name hname => ?_) (fun g hg => ?_)
          hparse.2).trans (by rw [List.append_assoc]; rfl)
        · simp only [Fields.keys, List.map_append, List.map_cons, List.map_nil, List.mem_append,
            List.mem_singleton, not_or]
          exact ⟨hfresh.2 name hname, fun heq => hnames.1 (heq ▸ hname)⟩
        · rw [← hget.2 g hg, Fields.get?, if_neg (hrest g hg)]

theorem parse_standIn (hs : s.isTarget) : s.parse (some standIn) path = .ok (some standIn) := by
  unfold isTarget at hs
  split at hs
  · rfl
  · rfl
  · cases hs

/-- What is settled, normalization leaves as it is. -/
theorem Settled.normalize (h : Settled fields fs) (hnames : (fields.map Field.name).Nodup)
    (htargets : ∀ f ∈ fields, f.locatable → f.schema.isTarget) :
    (Schema.object fields).normalize (.obj fs) = .ok (.obj fs) := by
  rw [normalize_obj]
  generalize hnamed : (Schema.object fields).locatorNames = names
  have hmem : ∀ key ∈ Fields.keys (targets names fs), key ∈ Fields.keys fs := fun key hkey => by
    obtain ⟨-, x, hx, -⟩ := mem_keys_targets.mp hkey
    exact Fields.mem_keys_of_get? hx
  have hkeys : Fields.keys (substitute (targets names fs) fs) = Fields.keys fs := by
    rw [substitute_eq_merge, Fields.keys_merge_of_mem]
    rwa [keys_standIns]
  have hout : parseFields fields (substitute (targets names fs) fs) "" [] =
      .ok (substitute (targets names fs) fs) := by
    refine parseFields_stand hnames (hkeys ▸ h.keys) (by simp [Fields.keys]) (fun _ _ => rfl)
      fun f hf => ?_
    rw [get?_substitute]
    split
    · next hkey =>
      have hlocatable := locatable_of_mem hnames hf (hnamed ▸ (mem_keys_targets.mp hkey).1)
      exact parse_standIn (htargets f hf hlocatable)
    · next hkey =>
      rcases h.entries f hf with ⟨hlocatable, hx⟩ | hparse
      · refine absurd (mem_keys_targets.mpr ⟨?_, hx⟩) hkey
        rw [← hnamed]
        exact List.mem_map_of_mem (List.mem_filter.mpr ⟨hf, hlocatable⟩)
      · exact hparse
  have hd : Fields.Distinct fs := hnames.sublist h.keys
  have hback : Fields.merge (substitute (targets names fs) fs) (targets names fs) = fs := by
    symm
    refine hd.ext ?_ fun key => ?_
    · rw [Fields.keys_merge_of_mem fun key hkey => hkeys ▸ hmem key hkey, hkeys]
    · by_cases hkey : key ∈ Fields.keys (targets names fs)
      · obtain ⟨hname, x, hx, hnull⟩ := mem_keys_targets.mp hkey
        rw [get?_restored_of_target _ hname hx hnull, hx]
      · rw [Fields.get?_merge_of_not_mem hkey, get?_substitute, if_neg hkey]
  simp only [parse_object, present, hout, Except.map, Value.ofOption, restore, hback]

theorem parse_isTarget (hs : s.isTarget) {x : Value} (h : s.parse v path = .ok (some x)) :
    v = some x := by
  have locator : ∀ {v : Option Value}, Schema.locator.parse v path = .ok (some x) → v = some x := by
    intro v h
    simp only [parse_locator] at h
    obtain ⟨y, z, rfl, hyz, heq⟩ := present_ok h
    cases heq
    cases y <;> cases hyz <;> rfl
  unfold isTarget at hs
  split at hs
  · exact locator h
  · rcases optional_ok h with ⟨-, hnone⟩ | ⟨y, rfl, -, hy⟩
    · cases hnone
    · exact locator hy
  · cases hs

/-- What normalization answers is settled, and its targets are those that went in. -/
theorem normalize_settled (hs : (Schema.object fields).settling)
    (hsteps : (Schema.object fields).OnlyStringifies)
    (htargets : ∀ f ∈ fields, f.locatable → f.schema.isTarget) {q : Value}
    (h : (Schema.object fields).normalize (.obj fs) = .ok q) :
    ∃ fs', q = .obj fs' ∧ Settled fields fs' ∧
      ∀ f ∈ fields, f.locatable → ∀ x, get? f.name fs' = some x → get? f.name fs = some x := by
  simp only [settling, Bool.and_eq_true, decide_eq_true_eq] at hs
  obtain ⟨hnames, hfields⟩ := hs
  rw [normalize_obj] at h
  generalize hnamed : (Schema.object fields).locatorNames = names at h
  obtain ⟨w, hw, rfl⟩ := map_ok h
  obtain ⟨_, out, heq, rfl, hout⟩ := object_ok hw
  cases heq
  refine ⟨_, rfl, ⟨?_, fun f hf => ?_⟩, fun f hf hlocatable x hx => ?_⟩
  · rw [Fields.keys_merge_of_mem]
    · exact parseFields_keys hout hnames
    · -- the stand-in comes out under the key of every target
      intro key hkey
      have hname := (mem_keys_targets.mp hkey).1
      rw [← hnamed] at hname
      obtain ⟨f, hf, rfl⟩ := List.mem_map.mp hname
      obtain ⟨hf, hlocatable⟩ := List.mem_filter.mp hf
      have hfield := parseFields_ok hout hnames hf rfl
      rw [get?_substitute, if_pos hkey, parse_standIn (htargets f hf hlocatable)] at hfield
      exact Fields.mem_keys_of_get? (Except.ok.inj hfield).symm
  · by_cases hkey : f.name ∈ Fields.keys (targets names fs)
    · obtain ⟨hname, x, hx, hnull⟩ := mem_keys_targets.mp hkey
      refine .inl ⟨locatable_of_mem hnames hf (hnamed ▸ hname), x, ?_, hnull⟩
      exact get?_restored_of_target out hname hx hnull
    · right
      rw [Fields.get?_merge_of_not_mem hkey]
      exact field_settles fields hfields hsteps hf (parseFields_ok hout hnames hf rfl)
  · by_cases hkey : f.name ∈ Fields.keys (targets names fs)
    · obtain ⟨hname, y, hy, hnull⟩ := mem_keys_targets.mp hkey
      rwa [get?_restored_of_target out hname hy hnull, ← hy] at hx
    · have hfield := parseFields_ok hout hnames hf rfl
      rw [Fields.get?_merge_of_not_mem hkey] at hx
      rw [get?_substitute, if_neg hkey, hx] at hfield
      exact parse_isTarget (htargets f hf hlocatable) hfield

/-! ## Layers around an object -/

/-- Only scalars are written out. -/
theorem objectFields_preprocessed {inner : Schema} {step : Value → Value}
    (hs : (Schema.preprocessed inner step).settling) :
    (Schema.preprocessed inner step).objectFields? ≠ some fields := by
  cases inner with
  | string => nofun
  | enumeration names => nofun
  | _ => cases hs

theorem settling_objectFields : ∀ {s : Schema}, s.settling → s.objectFields? = some fields →
    (Schema.object fields).settling
  | .object _, hs, h => by cases h; exact hs
  | .preprocessed _ _, hs, h => absurd h (objectFields_preprocessed hs)
  | .optional inner, hs, h => by
    simp only [settling] at hs
    exact settling_objectFields hs h
  | .nullable inner, hs, h => by
    simp only [settling] at hs
    exact settling_objectFields hs h
  | .withDefault inner _, hs, h => by
    simp only [settling, Bool.and_eq_true] at hs
    exact settling_objectFields hs.1 h

/-- The layers hand an object on as it is. -/
theorem parse_objectFields : ∀ {s : Schema}, s.settling → s.objectFields? = some fields →
    s.parse (some (.obj fs)) path = (Schema.object fields).parse (some (.obj fs)) path
  | .object _, _, h => by cases h; rfl
  | .preprocessed _ _, hs, h => absurd h (objectFields_preprocessed hs)
  | .optional inner, hs, h => by
    simp only [settling] at hs
    simpa only [parse_optional] using parse_objectFields hs h
  | .nullable inner, hs, h => by
    simp only [settling] at hs
    simpa only [parse_nullable] using parse_objectFields hs h
  | .withDefault inner _, hs, h => by
    simp only [settling, Bool.and_eq_true] at hs
    simpa only [parse_withDefault, Option.some_or] using parse_objectFields hs.1 h

/-- Of what is no object, only `null` is accepted, and nothing comes of it. -/
theorem parse_objectFields_other : ∀ {s : Schema}, s.settling → s.objectFields? = some fields →
    ∀ {x : Value}, (∀ fs, x ≠ .obj fs) → s.parse (some x) path = .ok w →
      Value.ofOption w = .null
  | .object _, _, _, x, hx, h => by
    obtain ⟨fs, _, heq, -⟩ := object_ok h
    exact absurd (Option.some.inj heq) (hx fs)
  | .preprocessed _ _, hs, hfields, _, _, _ => absurd hfields (objectFields_preprocessed hs)
  | .optional inner, hs, hfields, x, hx, h => by
    simp only [settling] at hs
    rcases optional_ok h with ⟨-, rfl⟩ | ⟨y, heq, -, hinner⟩
    · rfl
    · cases heq
      exact parse_objectFields_other hs hfields hx hinner
  | .nullable inner, hs, hfields, x, hx, h => by
    simp only [settling] at hs
    rcases nullable_ok h with ⟨-, rfl⟩ | hinner
    · rfl
    · exact parse_objectFields_other hs hfields hx hinner
  | .withDefault inner _, hs, hfields, x, hx, h => by
    simp only [settling, Bool.and_eq_true] at hs
    exact parse_objectFields_other hs.1 hfields hx (withDefault_ok h)

theorem normalize_objectFields (hs : s.settling) (hfields : s.objectFields? = some fields) :
    s.normalize (.obj fs) = (Schema.object fields).normalize (.obj fs) := by
  have hnames : s.locatorNames = (Schema.object fields).locatorNames := by
    unfold locatorNames
    rw [hfields]
    rfl
  rw [normalize_obj, normalize_obj, hnames, parse_objectFields hs hfields]

/-- Where no targets are in play, normalizing is checking. -/
theorem normalize_eq_parse {p : Value} (h : s.objectFields? = none ∨ ∀ fs, p ≠ .obj fs) :
    s.normalize p = (s.parse (some p) "").map Value.ofOption := by
  unfold normalize
  split
  · next fs name names hnames =>
    rcases h with hnone | hp
    · rw [locatorNames, hnone] at hnames
      cases hnames
    · exact absurd rfl (hp fs)
  · rfl

theorem normalize_again (hs : s.settling) (hsteps : s.OnlyStringifies)
    (htargets : s.targetsOnly) {p q : Value} (h : s.normalize p = .ok q) :
    s.normalize q = .ok q := by
  have whole : ∀ {p : Value}, s.normalize p = (s.parse (some p) "").map Value.ofOption →
      s.normalize p = .ok q → (s.parse (some q) "").map Value.ofOption = .ok q := by
    intro p hp h
    rw [hp] at h
    obtain ⟨w, hw, rfl⟩ := map_ok h
    obtain ⟨w', hw', hsame⟩ := (parse_settles s hs hsteps hw).item
    rw [hw', Except.map, hsame]
  cases hfields : s.objectFields? with
  | none =>
    rw [normalize_eq_parse (.inl hfields)]
    exact whole (normalize_eq_parse (.inl hfields)) h
  | some fields =>
    by_cases hp : ∃ fs, p = .obj fs
    · obtain ⟨fs, rfl⟩ := hp
      have hobject := settling_objectFields hs hfields
      have hmem := targetsOnly_mem htargets hfields
      rw [normalize_objectFields hs hfields] at h
      obtain ⟨fs', rfl, hsettled, -⟩ := normalize_settled hobject (hsteps.object hfields) hmem h
      rw [normalize_objectFields hs hfields]
      simp only [settling, Bool.and_eq_true, decide_eq_true_eq] at hobject
      exact hsettled.normalize hobject.1 hmem
    · have hp : ∀ fs, p ≠ .obj fs := fun fs heq => hp ⟨fs, heq⟩
      have heq := normalize_eq_parse (s := s) (.inr hp)
      have hnull : q = .null := by
        rw [heq] at h
        obtain ⟨w, hw, rfl⟩ := map_ok h
        exact parse_objectFields_other hs hfields hp hw
      rw [normalize_eq_parse (.inr fun fs => hnull ▸ nofun)]
      exact whole heq h

/-- **Normalizing twice is normalizing once**, for schemas that settle and apply no function but the
one that writes scalars out, those of the standard actions among them: what comes out goes in again
and comes out as it is, with its keys in the same order. -/
theorem normalize_idempotent :
    (∀ s : Schema, s.settling → s.OnlyStringifies → s.targetsOnly → ∀ p q : Value,
      s.normalize p = .ok q → s.normalize q = .ok q) ∧
    ∀ a : StandardAction, a.schema.settling ∧ a.schema.OnlyStringifies ∧ a.schema.targetsOnly :=
  ⟨fun _ hs hsteps htargets _ _ h => normalize_again hs hsteps htargets h,
    fun a => ⟨by cases a <;> rfl, a.onlyStringifies, by cases a <;> rfl⟩⟩

/-- A survey that may be absent, with rows that may be missing. -/
def survey : Schema :=
  .optional (.object [(Field.target "at").optional, .plain "label" (.stringified .string),
    .plain "rows" (.array (.optional (.object [
      .plain "size" (.withDefault .number (.ofNat 1))]))),
    .plain "note" (.nullable (.optional .any))])

/-- The flag is written out, the size is filled in, the missing row becomes `null` and stays so. -/
theorem normalize_idempotent_survey :
    let p : Object := [("rows", .arr [.null, .obj []]), ("label", .bool true),
      ("at", .bool false), ("other", .null)]
    let q : Object := [("at", .bool false), ("label", .str "true"),
      ("rows", .arr [.null, .obj [("size", .ofNat 1)]])]
    survey.settling ∧ survey.OnlyStringifies ∧ survey.targetsOnly ∧
      survey.normalize (.obj p) = .ok (.obj q) ∧ survey.normalize (.obj q) = .ok (.obj q) := by
  intro p q
  have hs : survey.settling := rfl
  have hsteps : survey.OnlyStringifies := by
    simp [survey, OnlyStringifies, EachStep, FieldsEachStep, Field.target, Field.optional,
      Field.plain, Field.name, Field.schema, Field.description, Field.locatable]
  have htargets : survey.targetsOnly := rfl
  have hp : survey.normalize (.obj p) = .ok (.obj q) := rfl
  exact ⟨hs, hsteps, htargets, hp, normalize_idempotent.1 survey hs hsteps htargets _ _ hp⟩

end Schema

end Runbook
