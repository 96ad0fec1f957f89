/-
What comes out of a check that succeeds.

For every leaf, the kind of value (`string_ok` and the lemmas beside it); for an object with
distinct field names, what each field has made of the entry under its name (`parseFields_ok`), and
no keys but those of fields (`parseFields_keys`).
Normalization keeps to that, but for the targets that are there: they come out as they went in
(`normalize_object_ok`).
-/
import Mathlib.Data.List.Nodup
import Runbook.Proofs.Decode
import Runbook.Proofs.Schema.Targets

namespace Runbook.Schema

open Fields (Distinct)

variable {v w : Option Value} {path : String}

/-! ## Leaves and wrappers -/

theorem present_ok {check : Value → Parsed Value} (h : present path check v = .ok w) :
    ∃ x y, v = some x ∧ check x = .ok y ∧ w = some y := by
  cases v with
  | none => cases h
  | some x =>
    simp only [present] at h
    cases hx : check x with
    | error e => rw [hx] at h; cases h
    | ok y =>
      rw [hx] at h
      cases h
      exact ⟨x, y, rfl, hx, rfl⟩

theorem string_ok (h : Schema.string.parse v path = .ok w) : ∃ t, w = some (.str t) := by
  simp only [parse_string] at h
  obtain ⟨x, y, -, hxy, rfl⟩ := present_ok h
  cases x <;> cases hxy
  exact ⟨_, rfl⟩

theorem number_ok (h : Schema.number.parse v path = .ok w) : ∃ n, w = some (.num n) := by
  simp only [parse_number] at h
  obtain ⟨x, y, -, hxy, rfl⟩ := present_ok h
  cases x <;> cases hxy
  exact ⟨_, rfl⟩

/-- A natural number comes out as it went in. -/
theorem integer_ok (h : Schema.integer.parse v path = .ok w) :
    ∃ n, v = some (.num (.nat n)) ∧ w = some (.num (.nat n)) := by
  simp only [parse_integer] at h
  obtain ⟨x, y, rfl, hxy, rfl⟩ := present_ok h
  split at hxy <;> cases hxy
  exact ⟨_, rfl, rfl⟩

theorem enumeration_ok {names : List String} (h : (Schema.enumeration names).parse v path = .ok w) :
    ∃ t ∈ names, w = some (.str t) := by
  simp only [parse_enumeration] at h
  obtain ⟨x, y, -, hxy, rfl⟩ := present_ok h
  split at hxy
  · next t =>
    split at hxy <;> cases hxy
    exact ⟨t, by simpa using ‹names.contains t = true›, rfl⟩
  · cases hxy

theorem locator_ok (h : Schema.locator.parse v path = .ok w) : ∃ x, w = some x := by
  simp only [parse_locator] at h
  obtain ⟨x, y, -, -, rfl⟩ := present_ok h
  exact ⟨y, rfl⟩

theorem optional_ok {inner : Schema} (h : (Schema.optional inner).parse v path = .ok w) :
    (v = none ∨ v = some .null) ∧ w = none ∨
      ∃ x, v = some x ∧ x ≠ .null ∧ inner.parse (some x) path = .ok w := by
  simp only [parse_optional] at h
  split at h
  · cases h
    exact .inl ⟨.inl rfl, rfl⟩
  · cases h
    exact .inl ⟨.inr rfl, rfl⟩
  · next x hx => exact .inr ⟨x, rfl, hx, h⟩

theorem withDefault_ok {inner : Schema} {d : Value}
    (h : (Schema.withDefault inner d).parse v path = .ok w) :
    inner.parse (v.or (some d)) path = .ok w := by
  simpa only [parse_withDefault] using h

theorem preprocessed_ok {inner : Schema} {step : Value → Value}
    (h : (Schema.preprocessed inner step).parse v path = .ok w) :
    inner.parse (v.map step) path = .ok w := by
  simpa only [parse_preprocessed] using h

theorem nullable_ok {inner : Schema} (h : (Schema.nullable inner).parse v path = .ok w) :
    v = some .null ∧ w = some .null ∨ inner.parse v path = .ok w := by
  simp only [parse_nullable] at h
  split at h
  · cases h
    exact .inl ⟨rfl, rfl⟩
  · exact .inr h

/-! ## Arrays and unions -/

/-- The items that come out are what the items that went in have come to. -/
theorem parseItems_ok {check : Option Value → String → Parsed (Option Value)} {vs ws : List Value}
    {index : Nat} (h : parseItems check path vs index = .ok ws) :
    ∃ rs : List (Option Value), ws = rs.map Value.ofOption ∧
      ∀ r ∈ rs, ∃ v ∈ vs, ∃ p, check (some v) p = .ok r := by
  induction vs generalizing ws index with
  | nil =>
    cases h
    exact ⟨[], rfl, by simp⟩
  | cons v vs ih =>
    obtain ⟨r, hr, h⟩ := bind_ok h
    obtain ⟨others, hothers, h⟩ := bind_ok h
    cases h
    obtain ⟨rs, rfl, hrs⟩ := ih hothers
    refine ⟨r :: rs, rfl, fun r' hmem => ?_⟩
    rcases List.mem_cons.mp hmem with rfl | hmem
    · exact ⟨v, List.mem_cons_self .., _, hr⟩
    · obtain ⟨v', hv', p, hp⟩ := hrs r' hmem
      exact ⟨v', List.mem_cons_of_mem _ hv', p, hp⟩

theorem parseMembers_ok : ∀ {members : List Schema} {last : ParamError},
    parseMembers members v path last = .ok w → ∃ s ∈ members, s.parse v path = .ok w
  | [], _, h => by cases h
  | s :: rest, _, h => by
    simp only [parseMembers_cons] at h
    split at h
    · next x hx =>
      cases h
      exact ⟨s, List.mem_cons_self .., hx⟩
    · obtain ⟨s', hmem, hs'⟩ := parseMembers_ok h
      exact ⟨s', List.mem_cons_of_mem _ hmem, hs'⟩

/-! ## Objects -/

theorem parseFields_off {fs : Object} {key : String} :
    ∀ {fields : List Field} {out out' : Object}, parseFields fields fs path out = .ok out' →
      key ∉ fields.map Field.name → Fields.get? key out' = Fields.get? key out
  | [], _, _, h, _ => by
    cases h
    rfl
  | f :: rest, _, _, h, hkey => by
    simp only [List.map_cons, List.mem_cons, not_or] at hkey
    rw [parseFields_cons] at h
    obtain ⟨r, -, h⟩ := bind_ok h
    cases r with
    | none => exact parseFields_off h hkey.2
    | some x =>
      rw [parseFields_off h hkey.2, Fields.get?_insert, if_neg fun heq => hkey.1 heq.symm]

/-- Each field has made of the entry under its name what is under it in the end. -/
theorem parseFields_ok {fs : Object} {f : Field} :
    ∀ {fields : List Field} {out out' : Object}, parseFields fields fs path out = .ok out' →
      (fields.map Field.name).Nodup → f ∈ fields → Fields.get? f.name out = none →
        f.schema.parse (Fields.get? f.name fs) (fieldPath path f.name) =
          .ok (Fields.get? f.name out')
  | g :: rest, out, out', h, hnames, hf, hout => by
    simp only [List.map_cons, List.nodup_cons] at hnames
    rw [parseFields_cons] at h
    obtain ⟨r, hr, h⟩ := bind_ok h
    rcases List.mem_cons.mp hf with rfl | hf
    · -- the later fields have other names
      refine hr.trans (congrArg _ ?_)
      cases r with
      | none => exact ((parseFields_off h hnames.1).trans hout).symm
      | some x => rw [parseFields_off h hnames.1, Fields.get?_insert, if_pos rfl]
    · have hne : g.name ≠ f.name := fun heq => hnames.1 (List.mem_map.mpr ⟨f, hf, heq.symm⟩)
      cases r with
      | none => exact parseFields_ok h hnames.2 hf hout
      | some x =>
        refine parseFields_ok h hnames.2 hf ?_
        rw [Fields.get?_insert, if_neg hne, hout]

/-- The keys that come in are names of fields, in the order of the fields. -/
theorem parseFields_added {fs : Object} :
    ∀ {fields : List Field} {out out' : Object}, parseFields fields fs path out = .ok out' →
      (∀ name ∈ fields.map Field.name, name ∉ Fields.keys out) → (fields.map Field.name).Nodup →
        ∃ added, Fields.keys out' = Fields.keys out ++ added ∧
          added.Sublist (fields.map Field.name)
  | [], _, _, h, _, _ => by
    cases h
    exact ⟨[], (List.append_nil _).symm, .slnil⟩
  | f :: rest, out, _, h, hfresh, hnames => by
    simp only [List.map_cons, List.nodup_cons] at hnames
    simp only [List.map_cons, List.mem_cons, forall_eq_or_imp] at hfresh
    rw [parseFields_cons] at h
    obtain ⟨r, -, h⟩ := bind_ok h
    cases r with
    | none =>
      obtain ⟨added, hkeys, hsub⟩ := parseFields_added h hfresh.2 hnames.2
      exact ⟨added, hkeys, hsub.cons _⟩
    | some x =>
      have hinsert : Fields.keys (Fields.insert f.name x out) = Fields.keys out ++ [f.name] := by
        rw [Fields.keys_insert, if_neg hfresh.1]
      obtain ⟨added, hkeys, hsub⟩ := parseFields_added h (fun other hother => by
        rw [hinsert, List.mem_append, List.mem_singleton, not_or]
        exact ⟨hfresh.2 other hother, fun heq => hnames.1 (heq ▸ hother)⟩) hnames.2
      exact ⟨f.name :: added, by rw [hkeys, hinsert, List.append_assoc]; rfl, hsub.cons_cons _⟩

theorem parseFields_keys {fields : List Field} {fs out : Object}
    (h : parseFields fields fs path [] = .ok out) (hnames : (fields.map Field.name).Nodup) :
    (Fields.keys out).Sublist (fields.map Field.name) := by
  obtain ⟨added, hkeys, hsub⟩ := parseFields_added h (by simp [Fields.keys]) hnames
  exact hkeys ▸ hsub

/-- Fields that make the same of two objects make the same object. -/
theorem parseFields_congr_of_parse {fs gs : Object} : ∀ {fields : List Field} {out : Object},
    (∀ f ∈ fields, f.schema.parse (Fields.get? f.name fs) (fieldPath path f.name) =
      f.schema.parse (Fields.get? f.name gs) (fieldPath path f.name)) →
        parseFields fields fs path out = parseFields fields gs path out
  | [], _, _ => rfl
  | f :: rest, out, h => by
    simp only [List.mem_cons, forall_eq_or_imp] at h
    simp only [parseFields_cons, h.1]
    congr 1
    funext w
    cases w with
    | none => exact parseFields_congr_of_parse h.2
    | some x => exact parseFields_congr_of_parse h.2

theorem parseFields_distinct {fs : Object} {path : String} :
    ∀ {fields : List Field} {out out' : Object}, Distinct out →
      parseFields fields fs path out = .ok out' → Distinct out'
  | [], out, out', hd, h => by
    simp only [parseFields_nil, Except.ok.injEq] at h
    exact h ▸ hd
  | g :: rest, out, out', hd, h => by
    simp only [parseFields_cons, bind, Except.bind] at h
    split at h
    · cases h
    · next w hw =>
      cases w with
      | none => exact parseFields_distinct hd h
      | some v => exact parseFields_distinct (Fields.distinct_insert hd) h

theorem object_ok {fields : List Field} (h : (Schema.object fields).parse v path = .ok w) :
    ∃ fs out, v = some (.obj fs) ∧ w = some (.obj out) ∧
      parseFields fields fs path [] = .ok out := by
  simp only [parse_object] at h
  obtain ⟨x, y, rfl, hxy, rfl⟩ := present_ok h
  cases x with
  | obj fs =>
    obtain ⟨out, hout, rfl⟩ := map_ok hxy
    exact ⟨fs, out, rfl, rfl, hout⟩
  | _ => cases hxy

/-! ## Normalization -/

/-- What normalization has under the name of a field: a target as it was, or what the field's
schema makes of the entry. -/
def Filled (f : Field) (fs fs' : Object) : Prop :=
  (f.locatable = true ∧ ∃ x, Fields.get? f.name fs' = some x) ∨
    f.schema.parse (Fields.get? f.name fs) f.name = .ok (Fields.get? f.name fs')

theorem Filled.parse {f : Field} {fs fs' : Object} (h : Filled f fs fs')
    (hlocatable : f.locatable = false) :
    f.schema.parse (Fields.get? f.name fs) f.name = .ok (Fields.get? f.name fs') := by
  rcases h with ⟨htrue, -⟩ | hparse
  · rw [hlocatable] at htrue
    cases htrue
  · exact hparse

/-- A target that has to be there is there. -/
theorem Filled.target {f : Field} {fs fs' : Object} (h : Filled f fs fs')
    (hschema : f.schema = .locator) : ∃ x, Fields.get? f.name fs' = some x := by
  rcases h with ⟨-, hx⟩ | hparse
  · exact hx
  · rw [hschema] at hparse
    exact locator_ok hparse

theorem locatable_of_mem {fields : List Field} {f : Field} (hnames : (fields.map Field.name).Nodup)
    (hf : f ∈ fields) (h : f.name ∈ (Schema.object fields).locatorNames) : f.locatable = true := by
  obtain ⟨g, hg, hname⟩ := List.mem_map.mp h
  obtain ⟨hg, hlocatable⟩ := List.mem_filter.mp hg
  rwa [List.inj_on_of_nodup_map hnames hg hf hname] at hlocatable

theorem normalize_object_ok {fields : List Field} (hnames : (fields.map Field.name).Nodup)
    {p q : Value} (h : (Schema.object fields).normalize p = .ok q) :
    ∃ fs fs', p = .obj fs ∧ q = .obj fs' ∧ Distinct fs' ∧ ∀ f ∈ fields, Filled f fs fs' := by
  have hobject : ∃ fs, p = .obj fs := by
    cases p with
    | obj fs => exact ⟨fs, rfl⟩
    | _ => cases h
  obtain ⟨fs, rfl⟩ := hobject
  rw [normalize_obj] at h
  generalize hentries : targets (Schema.object fields).locatorNames fs = entries at h
  cases hparse : (Schema.object fields).parse (some (.obj (substitute entries fs))) "" with
  | error e => rw [hparse] at h; cases h
  | ok w =>
    rw [hparse] at h
    obtain ⟨gs, out, hgs, rfl, hout⟩ := object_ok hparse
    cases hgs
    cases h
    refine ⟨fs, _, rfl, rfl,
      Fields.distinct_merge (parseFields_distinct Fields.distinct_nil hout), fun f hf => ?_⟩
    by_cases hkey : f.name ∈ Fields.keys entries
    · subst hentries
      obtain ⟨hmem, v, hget, hnull⟩ := mem_keys_targets.mp hkey
      exact .inl ⟨locatable_of_mem hnames hf hmem, v, get?_restored_of_target out hmem hget hnull⟩
    · right
      rw [Fields.get?_merge_of_not_mem hkey]
      have hfield := parseFields_ok hout hnames hf rfl
      subst hentries
      rwa [get?_substitute, if_neg hkey] at hfield

end Runbook.Schema
