/-
What a check means, field by field.

The outcome for an object is put together from the shares of the declared fields, in their order,
and it is the first error among them if there is one (`collect`). In a check the share of a field
is what its schema makes of the entry under its name (`parseFields_eq_collect`). In normalization a
target that is there is its own share (`normalize_eq_collect`): the stand-in that is checked in its
place is accepted, holds its place among the entries, and is replaced there.
-/
import Mathlib.Logic.Function.Iterate
import Runbook.Proofs.Schema.Declared

namespace Runbook

open Fields (get? keys Distinct)

/-- Whether there is something other than `null` under a key. -/
def Fields.given (key : String) (fs : Object) : Bool := !(Value.ofOption (get? key fs)).isNull

theorem Fields.given_iff {key : String} {fs : Object} :
    given key fs = true ↔ ∃ v, get? key fs = some v ∧ v ≠ .null := by
  unfold given
  cases get? key fs with
  | none => simp [Value.ofOption, Value.isNull]
  | some v => cases v <;> simp [Value.ofOption, Value.isNull]

theorem Fields.given_eq_false_iff {key : String} {fs : Object} :
    given key fs = false ↔ get? key fs = none ∨ get? key fs = some .null := by
  unfold given
  cases get? key fs with
  | none => simp [Value.ofOption, Value.isNull]
  | some v => cases v <;> simp [Value.ofOption, Value.isNull]

namespace Field

/-- What the schema of a field makes of the entry under its name. -/
def check (fs : Object) (path : String) (f : Field) : Parsed (Option Value) :=
  f.schema.parse (get? f.name fs) (Schema.fieldPath path f.name)

/-- What a field comes to as a parameter: a target that is there is taken as it is. -/
def share (fs : Object) (f : Field) : Parsed (Option Value) :=
  if f.locatable && Fields.given f.name fs then .ok (get? f.name fs) else f.check fs ""

/-- What a field contributes to the parameters: of a target what is there and is not `null`, and
else what its schema makes of the entry under its name. -/
def parameter? (fs : Object) (f : Field) : Option Value :=
  if f.locatable then (get? f.name fs).filter (!·.isNull) else (f.check fs "").toOption.join

/-! ## Shares put together -/

/-- The entries of the fields that have one, in the order of the fields. -/
def entries (g : Field → Option Value) (fields : List Field) : Object :=
  fields.filterMap fun f => (g f).map (f.name, ·)

/-- The entries that fields come to by themselves, or the first error among them. -/
def collect (each : Field → Parsed (Option Value)) : List Field → Parsed Object
  | [] => .ok []
  | f :: rest => do
    let w ← each f
    let es ← collect each rest
    .ok (w.toList.map (f.name, ·) ++ es)

variable {fields : List Field} {fs out : Object} {f : Field} {path key : String}
  {g : Field → Option Value} {each : Field → Parsed (Option Value)}

theorem entries_cons (g : Field → Option Value) (f : Field) (rest : List Field) :
    entries g (f :: rest) = (g f).toList.map (f.name, ·) ++ entries g rest := by
  cases hf : g f <;> simp [entries, hf]

theorem keys_entries (g : Field → Option Value) (fields : List Field) :
    keys (entries g fields) = (fields.filter fun f => (g f).isSome).map name := by
  induction fields with
  | nil => rfl
  | cons f rest ih =>
    rw [entries_cons, keys, List.map_append]
    rw [keys] at ih
    cases hf : g f <;> simp [ih, hf]

theorem keys_entries_sublist : (keys (entries g fields)).Sublist (fields.map name) := by
  rw [keys_entries]
  exact List.filter_sublist.map _

theorem distinct_entries (hnames : (fields.map name).Nodup) : Distinct (entries g fields) :=
  hnames.sublist keys_entries_sublist

theorem get?_entries_of_not_mem (hkey : key ∉ fields.map name) :
    get? key (entries g fields) = none := by
  rw [Fields.get?_eq_none_iff]
  exact fun hmem => hkey (keys_entries_sublist.subset hmem)

theorem get?_entries (hnames : (fields.map name).Nodup) (hf : f ∈ fields) :
    get? f.name (entries g fields) = g f := by
  induction fields with
  | nil => cases hf
  | cons e rest ih =>
    simp only [List.map_cons, List.nodup_cons] at hnames
    rw [entries_cons, Fields.get?_append]
    rcases List.mem_cons.mp hf with rfl | hf
    · rw [get?_entries_of_not_mem hnames.1]
      cases g f <;> simp [get?]
    · have hne : e.name ≠ f.name := fun heq => hnames.1 (heq ▸ List.mem_map_of_mem hf)
      rw [ih hnames.2 hf]
      cases g e <;> simp [get?, hne]

theorem collect_of_ok (h : ∀ f ∈ fields, each f = .ok (g f)) :
    collect each fields = .ok (entries g fields) := by
  induction fields with
  | nil => rfl
  | cons f rest ih =>
    simp only [List.mem_cons, forall_eq_or_imp] at h
    simp only [collect, h.1, ih h.2, entries_cons, bind, Except.bind]

theorem each_of_collect_ok (h : collect each fields = .ok out) :
    ∀ f ∈ fields, each f = .ok (each f).toOption.join := by
  induction fields generalizing out with
  | nil => simp
  | cons f rest ih =>
    obtain ⟨w, hw, h⟩ := bind_ok h
    obtain ⟨es, hes, -⟩ := bind_ok h
    simp only [List.mem_cons, forall_eq_or_imp]
    exact ⟨by rw [hw]; rfl, ih hes⟩

theorem collect_ok (h : collect each fields = .ok out) :
    ∃ g, (∀ f ∈ fields, each f = .ok (g f)) ∧ out = entries g fields := by
  have hall := each_of_collect_ok h
  exact ⟨_, hall, Except.ok.inj (h.symm.trans (collect_of_ok hall))⟩

theorem collect_congr {each' : Field → Parsed (Option Value)}
    (h : ∀ f ∈ fields, each f = each' f) : collect each fields = collect each' fields := by
  induction fields with
  | nil => rfl
  | cons f rest ih =>
    simp only [List.mem_cons, forall_eq_or_imp] at h
    simp only [collect, h.1, ih h.2]

/-- The first field with an error decides, and those after it are not asked. -/
theorem collect_error_iff {e : ParamError} : collect each fields = .error e ↔
    ∃ before f after, fields = before ++ f :: after ∧ (∀ g ∈ before, ∃ w, each g = .ok w) ∧
      each f = .error e := by
  induction fields with
  | nil => simp [collect]
  | cons f rest ih =>
    constructor
    · intro h
      cases hf : each f with
      | error e' =>
        simp only [collect, hf, bind, Except.bind, Except.error.injEq] at h
        exact ⟨[], f, rest, rfl, by simp, by rw [hf, h]⟩
      | ok w =>
        have hrest : collect each rest = .error e := by
          simp only [collect, hf, bind, Except.bind] at h
          cases hrest : collect each rest with
          | error e' => rwa [hrest] at h
          | ok es => rw [hrest] at h; cases h
        obtain ⟨before, f', after, rfl, hbefore, hf'⟩ := ih.mp hrest
        refine ⟨f :: before, f', after, rfl, fun g hg => ?_, hf'⟩
        rcases List.mem_cons.mp hg with rfl | hg
        · exact ⟨w, hf⟩
        · exact hbefore g hg
    · rintro ⟨before, f', after, heq, hbefore, hf'⟩
      cases before with
      | nil =>
        cases heq
        simp only [collect, hf', bind, Except.bind]
      | cons b before =>
        cases heq
        obtain ⟨w, hw⟩ := hbefore f (by simp)
        have hrest := ih.mpr ⟨before, f', after, rfl, fun g hg => hbefore g (by simp [hg]), hf'⟩
        simp only [collect, hw, hrest, bind, Except.bind]

end Field

namespace Schema

open Runbook.Field (check share entries collect)

variable {fields : List Field} {fs : Object} {f : Field} {path : String} {v : Value} {n : Nat}

/-! ## Checks -/

theorem parseFields_append (hnames : (fields.map Field.name).Nodup) : ∀ {out : Object},
    (∀ name ∈ fields.map Field.name, name ∉ keys out) →
      parseFields fields fs path out = (collect (check fs path) fields).map (out ++ ·) := by
  induction fields with
  | nil => simp [collect, Except.map]
  | cons f rest ih =>
    intro out hfresh
    simp only [List.map_cons, List.nodup_cons] at hnames
    simp only [List.map_cons, List.mem_cons, forall_eq_or_imp] at hfresh
    simp only [parseFields_cons, collect, check, bind, Except.bind]
    cases f.schema.parse (get? f.name fs) (fieldPath path f.name) with
    | error e => rfl
    | ok w =>
      cases w with
      | none =>
        simp only [ih hnames.2 hfresh.2]
        generalize collect _ rest = others
        cases others <;> rfl
      | some x =>
        have hinsert : ∀ name ∈ rest.map Field.name, name ∉ keys (out ++ [(f.name, x)]) := by
          intro name hname hmem
          simp only [keys, List.map_append, List.map_cons, List.map_nil, List.mem_append,
            List.mem_singleton] at hmem
          rcases hmem with hmem | rfl
          · exact hfresh.2 name hname hmem
          · exact hnames.1 hname
        simp only [Fields.insert_of_not_mem hfresh.1, ih hnames.2 hinsert]
        generalize collect _ rest = others
        cases others <;> simp [Except.map]

/-- The check of an object, field by field. -/
theorem parseFields_eq_collect (hnames : (fields.map Field.name).Nodup) :
    parseFields fields fs path [] = collect (check fs path) fields := by
  rw [parseFields_append hnames (by simp [keys])]
  cases collect (check fs path) fields <;> rfl

/-! ## Normalization -/

theorem parse_layers_of_ne_null (hv : v ≠ .null) :
    (optional^[n] .locator).parse (some v) path = Schema.locator.parse (some v) path := by
  induction n with
  | zero => rfl
  | succ n ih =>
    rw [Function.iterate_succ_apply', ← ih]
    cases v <;> first | rfl | exact absurd rfl hv

/-- A target that is there is its own share. -/
theorem share_of_given (hlocatable : f.locatable = true)
    (hgiven : Fields.given f.name fs = true) : f.share fs = .ok (get? f.name fs) := by
  simp [Field.share, hlocatable, hgiven]

theorem share_of_plain (hlocatable : f.locatable = false) :
    f.share fs = f.check fs "" := by
  simp [Field.share, hlocatable]

/-- Only the entry under its name is asked for the share of a field. -/
theorem share_congr {gs : Object} (h : get? f.name fs = get? f.name gs) :
    f.share fs = f.share gs := by
  have hgiven : Fields.given f.name fs = Fields.given f.name gs := by
    rw [Fields.given, h, ← Fields.given]
  have hcheck : f.check fs "" = f.check gs "" := by
    rw [check, h, ← check]
  rw [share, hgiven, h, hcheck, ← share]

/-- A target that is not there is refused, or has no share if it may be absent. -/
theorem share_of_not_given (hn : f.schema = optional^[n] .locator)
    (hgiven : Fields.given f.name fs = false) :
    if n = 0 then ∃ e, f.share fs = .error e
    else f.share fs = .ok none := by
  have hnull := Fields.given_eq_false_iff.mp hgiven
  have hshare : f.share fs =
      (optional^[n] .locator).parse (get? f.name fs) (fieldPath "" f.name) := by
    simp [Field.share, hgiven, check, hn]
  rw [hshare]
  cases n with
  | zero => rcases hnull with hnull | hnull <;> rw [hnull] <;> exact ⟨_, rfl⟩
  | succ n =>
    rw [Function.iterate_succ_apply', if_neg (Nat.succ_ne_zero n)]
    rcases hnull with hnull | hnull <;> rw [hnull] <;> rfl

/-- A target has a share unless it has to be there and is not. -/
theorem share_of_target (hlocatable : f.locatable = true)
    (htarget : ∃ n, f.schema = optional^[n] .locator) :
    (∃ w, f.share fs = .ok w) ↔
      (f.schema = .locator → Fields.given f.name fs = true) := by
  obtain ⟨n, hn⟩ := htarget
  cases hgiven : Fields.given f.name fs with
  | true => simp [share_of_given hlocatable hgiven]
  | false =>
    have hshare := share_of_not_given hn hgiven
    cases n with
    | zero =>
      obtain ⟨e, he⟩ := hshare
      have hschema : f.schema = .locator := hn
      simp [he, hschema]
    | succ n =>
      have hschema : f.schema ≠ .locator := by
        rw [hn, Function.iterate_succ_apply']
        nofun
      rw [if_neg (Nat.succ_ne_zero n)] at hshare
      simp [hshare, hschema]

/-- The share of a field, if it has one, is its parameter. -/
theorem shares_parameter (htarget : f.locatable = true → ∃ n, f.schema = optional^[n] .locator)
    (h : ∃ w, f.share fs = .ok w) :
    f.share fs = .ok (f.parameter? fs) := by
  obtain ⟨w, h⟩ := h
  suffices w = f.parameter? fs by rw [h, this]
  unfold Field.parameter?
  cases hlocatable : f.locatable with
  | false =>
    rw [share_of_plain hlocatable] at h
    rw [h]
    rfl
  | true =>
    obtain ⟨n, hn⟩ := htarget hlocatable
    cases hgiven : Fields.given f.name fs with
    | true =>
      obtain ⟨v, hv, hnull⟩ := Fields.given_iff.mp hgiven
      rw [share_of_given hlocatable hgiven, hv] at h
      rw [← Except.ok.inj h, hv]
      cases v <;> first | rfl | exact absurd rfl hnull
    | false =>
      have hshare := share_of_not_given hn hgiven
      split at hshare
      · obtain ⟨e, he⟩ := hshare
        cases h.symm.trans he
      · rw [← Except.ok.inj (hshare.symm.trans h)]
        rcases Fields.given_eq_false_iff.mp hgiven with hnull | hnull <;> rw [hnull] <;> rfl

theorem mem_keys_targets_iff (hnames : (fields.map Field.name).Nodup) (hf : f ∈ fields) :
    f.name ∈ keys (targets (Schema.object fields).locatorNames fs) ↔
      (f.locatable && Fields.given f.name fs) = true := by
  rw [mem_keys_targets, Bool.and_eq_true, Fields.given_iff]
  refine and_congr_left fun _ => ⟨locatable_of_mem hnames hf, fun hlocatable => ?_⟩
  exact List.mem_map_of_mem (List.mem_filter.mpr ⟨hf, hlocatable⟩)

/-- The check of a field with the stand-ins, where there is one for it and where there is none. -/
theorem check_substitute (fs : Object) (hnames : (fields.map Field.name).Nodup) (hf : f ∈ fields)
    (htarget : f.locatable = true → ∃ n, f.schema = optional^[n] .locator) :
    let entries := targets (Schema.object fields).locatorNames fs
    f.check (substitute entries fs) "" =
      if f.name ∈ keys entries then .ok (some standIn) else f.share fs := by
  intro entries
  rw [check, get?_substitute]
  split
  · next hmem =>
    have hlocatable := (Bool.and_eq_true_iff.mp ((mem_keys_targets_iff hnames hf).mp hmem)).1
    obtain ⟨n, hn⟩ := htarget hlocatable
    have hstandIn : standIn ≠ .null := by simp [standIn]
    rw [hn, parse_layers_of_ne_null hstandIn]
    rfl
  · next hmem => rw [share, if_neg (mt (mem_keys_targets_iff hnames hf).mpr hmem), check]

/-- Putting the targets back changes what is under their names and nothing else. -/
theorem merge_entries {g : Field → Option Value} (hnames : (fields.map Field.name).Nodup)
    (hg : ∀ f ∈ fields,
      f.name ∈ keys (targets (Schema.object fields).locatorNames fs) → (g f).isSome) :
    let given := targets (Schema.object fields).locatorNames fs
    Fields.merge (entries g fields) given =
      entries (fun f => if f.name ∈ keys given then get? f.name fs else g f) fields := by
  intro given
  have hfield : ∀ key ∈ keys given, ∃ f ∈ fields, f.name = key := fun key hkey =>
    exists_field_of_mem_locatorNames rfl (mem_keys_targets.mp hkey).1
  have hkeys : keys (Fields.merge (entries g fields) given) = keys (entries g fields) := by
    refine Fields.keys_merge_of_mem fun key hkey => ?_
    obtain ⟨f, hf, rfl⟩ := hfield key hkey
    rw [Field.keys_entries]
    exact List.mem_map_of_mem (List.mem_filter.mpr ⟨hf, hg f hf hkey⟩)
  refine (Fields.distinct_merge (Field.distinct_entries hnames)).ext ?_ fun key => ?_
  · rw [hkeys, Field.keys_entries, Field.keys_entries]
    congr 1
    refine List.filter_congr fun f hf => ?_
    by_cases hmem : f.name ∈ keys given
    · obtain ⟨-, v, hv, -⟩ := mem_keys_targets.mp hmem
      simp [hmem, hg f hf hmem, hv]
    · simp [hmem]
  · by_cases hmem : key ∈ keys given
    · obtain ⟨hname, v, hv, hnull⟩ := mem_keys_targets.mp hmem
      obtain ⟨f, hf, rfl⟩ := hfield key hmem
      rw [get?_restored_of_target _ hname hv hnull, Field.get?_entries hnames hf, if_pos hmem, hv]
    · rw [Fields.get?_merge_of_not_mem hmem]
      by_cases hname : key ∈ fields.map Field.name
      · obtain ⟨f, hf, rfl⟩ := List.mem_map.mp hname
        rw [Field.get?_entries hnames hf, Field.get?_entries hnames hf, if_neg hmem]
      · rw [Field.get?_entries_of_not_mem hname, Field.get?_entries_of_not_mem hname]

/-- Normalization, field by field. -/
theorem normalize_eq_collect (hnames : (fields.map Field.name).Nodup)
    (htargets : ∀ f ∈ fields, f.locatable = true → ∃ n, f.schema = optional^[n] .locator)
    (fs : Object) :
    (Schema.object fields).normalize (.obj fs) = (collect (share fs) fields).map .obj := by
  have hcheck := fun f hf => check_substitute fs hnames hf (htargets f hf)
  have hshare : ∀ f ∈ fields, f.name ∈ keys (targets (Schema.object fields).locatorNames fs) →
      f.share fs = .ok (get? f.name fs) := fun f hf hmem =>
    if_pos ((mem_keys_targets_iff hnames hf).mp hmem)
  simp only [normalize_obj, parse_object, present, parseFields_eq_collect hnames]
  cases hout : collect
      (check (substitute (targets (Schema.object fields).locatorNames fs) fs) "") fields with
  | error e =>
    -- the stand-ins are accepted, so the error is that of a field that stands for itself
    obtain ⟨before, f, after, hsplit, hbefore, hf⟩ := Field.collect_error_iff.mp hout
    have herror : collect (share fs) fields = .error e := by
      refine Field.collect_error_iff.mpr ⟨before, f, after, hsplit, fun g hg => ?_, ?_⟩
      · obtain ⟨w, hw⟩ := hbefore g hg
        rw [hcheck g (by simp [hsplit, hg])] at hw
        split at hw
        · next hmem => exact ⟨_, hshare g (by simp [hsplit, hg]) hmem⟩
        · exact ⟨w, hw⟩
      · rw [hcheck f (by simp [hsplit])] at hf
        split at hf
        · cases hf
        · exact hf
    rw [herror]
    rfl
  | ok out =>
    obtain ⟨g, hg, rfl⟩ := Field.collect_ok hout
    have hsome : ∀ f ∈ fields, f.name ∈ keys (targets (Schema.object fields).locatorNames fs) →
        (g f).isSome := by
      intro f hf hmem
      have hw := hg f hf
      rw [hcheck f hf, if_pos hmem] at hw
      rw [← Except.ok.inj hw]
      rfl
    have hall : ∀ f ∈ fields, f.share fs = .ok
        (if f.name ∈ keys (targets (Schema.object fields).locatorNames fs) then get? f.name fs
          else g f) := by
      intro f hf
      split
      · next hmem => exact hshare f hf hmem
      · next hmem => rw [← hg f hf, hcheck f hf, if_neg hmem]
    rw [Field.collect_of_ok hall, ← merge_entries hnames hsome]
    rfl

theorem normalize_ok_iff (hnames : (fields.map Field.name).Nodup)
    (htargets : ∀ f ∈ fields, f.locatable = true → ∃ n, f.schema = optional^[n] .locator) :
    (∃ w, (Schema.object fields).normalize (.obj fs) = .ok w) ↔
      ∀ f ∈ fields, ∃ w, f.share fs = .ok w := by
  rw [normalize_eq_collect hnames htargets]
  constructor
  · rintro ⟨w, hw⟩ f hf
    obtain ⟨out, hout, -⟩ := map_ok hw
    exact ⟨_, Field.each_of_collect_ok hout f hf⟩
  · intro hall
    rw [Field.collect_of_ok fun f hf => shares_parameter (htargets f hf) (hall f hf)]
    exact ⟨_, rfl⟩

theorem normalize_ok {w : Value} (hnames : (fields.map Field.name).Nodup)
    (htargets : ∀ f ∈ fields, f.locatable = true → ∃ n, f.schema = optional^[n] .locator)
    (h : (Schema.object fields).normalize (.obj fs) = .ok w) :
    w = .obj (entries (Field.parameter? fs) fields) := by
  have hall := (normalize_ok_iff hnames htargets).mp ⟨w, h⟩
  rw [normalize_eq_collect hnames htargets,
    Field.collect_of_ok fun f hf => shares_parameter (htargets f hf) (hall f hf)] at h
  exact (Except.ok.inj h).symm

/-! ## The meaning of normalization -/

/-- **Normalization, field by field**, whatever the functions are that the fields apply before they
check. For an object and a schema with names of their own for the fields, whose locatable fields are
targets, absent or not: normalization succeeds if and only if every other field accepts the entry
under its name, and every target that has to be there is there and is not `null`. Then the
parameters are those of the fields, in the order of the fields: targets as they are, the rest as the
fields' schemas answer. Else the error is that of the first field that fails. Nothing but what is
under the names of the fields counts. -/
theorem normalize_fieldwise {fields : List Field} (hnames : (fields.map Field.name).Nodup)
    (htargets : ∀ f ∈ fields, f.locatable = true → ∃ n, f.schema = optional^[n] .locator)
    (fs : Object) :
    let outcome := (Schema.object fields).normalize (.obj fs)
    ((∃ w, outcome = .ok w) ↔
        (∀ f ∈ fields, f.locatable = false →
          ∃ w, f.schema.parse (get? f.name fs) f.name = .ok w) ∧
        ∀ f ∈ fields, f.locatable = true → f.schema = .locator →
          ∃ v, get? f.name fs = some v ∧ v ≠ .null) ∧
      (∀ w, outcome = .ok w → w = .obj (entries (Field.parameter? fs) fields)) ∧
      (∀ e, outcome = .error e ↔ ∃ before f after, fields = before ++ f :: after ∧
        (∀ g ∈ before, ∃ w, g.share fs = .ok w) ∧ f.share fs = .error e) ∧
      ∀ gs : Object, (∀ f ∈ fields, get? f.name gs = get? f.name fs) →
        (Schema.object fields).normalize (.obj gs) = outcome := by
  intro outcome
  have houtcome : outcome = (collect (share fs) fields).map .obj :=
    normalize_eq_collect hnames htargets fs
  have hok : (∃ w, outcome = .ok w) ↔ ∀ f ∈ fields, ∃ w, f.share fs = .ok w :=
    normalize_ok_iff hnames htargets
  refine ⟨hok.trans ⟨fun hall => ⟨?_, ?_⟩, ?_⟩, fun w hw => ?_, fun e => ?_, fun gs hgs => ?_⟩
  · intro f hf hlocatable
    have hshare := hall f hf
    rwa [share_of_plain hlocatable] at hshare
  · intro f hf hlocatable hschema
    exact Fields.given_iff.mp ((share_of_target hlocatable (htargets f hf hlocatable)).mp
      (hall f hf) hschema)
  · rintro ⟨hothers, hthere⟩ f hf
    cases hlocatable : f.locatable with
    | false =>
      rw [share_of_plain hlocatable]
      exact hothers f hf hlocatable
    | true =>
      refine (share_of_target hlocatable (htargets f hf hlocatable)).mpr fun hschema => ?_
      exact Fields.given_iff.mpr (hthere f hf hlocatable hschema)
  · exact normalize_ok hnames htargets hw
  · rw [houtcome, ← Field.collect_error_iff]
    cases collect (share fs) fields <;> simp [Except.map]
  · have hshares : ∀ f ∈ fields, f.share gs = f.share fs :=
      fun f hf => share_congr (hgs f hf)
    rw [houtcome, normalize_eq_collect hnames htargets, Field.collect_congr hshares]

/-- A move with a target that has to be there, one that need not, and a count. -/
def moveFields : List Field :=
  [.target "from", (Field.target "at").optional, .plain "times" (.withDefault .integer (.ofNat 1))]

/-- Only what is named counts, in the order of the fields, and the first error comes first. -/
theorem normalize_fieldwise_move :
    let fs : Object := [("times", .ofNat 3), ("extra", .null), ("from", .arr []), ("at", .null)]
    let bad : Object := [("times", .str "often")]
    (moveFields.map Field.name).Nodup ∧
      (Schema.object moveFields).normalize (.obj fs) =
        .ok (.obj [("from", .arr []), ("times", .ofNat 3)]) ∧
      (Schema.object moveFields).normalize (.obj bad) = .error ⟨"from", .absent⟩ := by
  intro fs bad
  have hnames : (moveFields.map Field.name).Nodup := by decide
  have htargets : ∀ f ∈ moveFields, f.locatable = true → ∃ n, f.schema = optional^[n] .locator := by
    simp only [moveFields, List.forall_mem_cons]
    exact ⟨fun _ => ⟨0, rfl⟩, fun _ => ⟨1, rfl⟩, nofun, nofun⟩
  obtain ⟨hsucceeds, hanswer, -⟩ := normalize_fieldwise hnames htargets fs
  obtain ⟨-, -, herror, -⟩ := normalize_fieldwise hnames htargets bad
  obtain ⟨w, hw⟩ := hsucceeds.mpr ⟨by
    simp only [moveFields, List.forall_mem_cons]
    exact ⟨nofun, nofun, fun _ => ⟨_, rfl⟩, nofun⟩, by
    simp only [moveFields, List.forall_mem_cons]
    exact ⟨fun _ _ => ⟨_, rfl, nofun⟩, nofun, nofun, nofun⟩⟩
  refine ⟨hnames, ?_, (herror _).mpr ⟨[], _, _, rfl, nofun, rfl⟩⟩
  rw [hw, hanswer w hw]
  rfl

end Schema

end Runbook
