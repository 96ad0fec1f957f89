/-
Targets are opaque to normalization.

Two objects that differ in what their targets are, and in nothing else, are
both refused for the same reason or both accepted, with results that differ
in these targets and in nothing else (`normalize_opaque`). The reason is that
the check sees one object for both: the stand-in is all it gets to see of a
target. That the stand-in does not come out again is a matter of its own,
since a check may take an object apart and leave entries out; what carries it
is that the text of the stand-in is in an entry of the outcome only if it is
in the entry of that key or in a default (`parse_entries`).
-/
import Runbook.Proofs.Schema.Reorder

namespace Runbook

/-! ## Texts of numbers -/

theorem Binary64.Layout.underscore_not_mem_write (l : Layout) {ds : List Char} (h : '_' ∉ ds)
    (lead : Int) : '_' ∉ l.write ds lead := by
  have digits : ∀ n, '_' ∉ Nat.toDigits 10 n := fun _ => Nat.underscore_not_in_toDigits
  simp only [Layout.write]
  split
  · split
    · simp [h]
    · have htake : ∀ n, '_' ∉ ds.take n := fun n hm => h (List.mem_of_mem_take hm)
      have hdrop : ∀ n, '_' ∉ ds.drop n := fun n hm => h (List.mem_of_mem_drop hm)
      split <;> simp [htake, hdrop]
  · split
    · next d e rest =>
      simp only [List.mem_cons, not_or] at h
      split <;> simp [h, digits]
    · split <;> simp [h, digits]

theorem Binary64.underscore_not_mem_text (x : Binary64) : '_' ∉ x.text.toList := by
  have hdigits : ∀ d : Digits, '_' ∉ d.text := by
    intro d hm
    have := (List.dropWhile_sublist _).subset (List.mem_reverse.mp hm)
    exact Nat.underscore_not_in_toDigits (List.mem_reverse.mp this)
  have hwrite := fun d : Digits => layout.underscore_not_mem_write (hdigits d) d.lead
  simp only [text, String.toList_ofList]
  split <;> split <;> simp [hwrite]

theorem Number.underscore_not_mem_text (n : Number) : '_' ∉ n.text.toList := by
  cases n with
  | nat n => simp [text]
  | negSucc n => simp [text]
  | real x => exact x.underscore_not_mem_text

/-! ## Where a text can come from -/

/-- A text is part of a value. -/
inductive Value.Mentions (text : String) : Value → Prop
  | text : Value.Mentions text (.str text)
  | item {vs : List Value} {v : Value} (hmem : v ∈ vs) (h : Value.Mentions text v) :
      Value.Mentions text (.arr vs)
  | entry {fs : Object} {key : String} {v : Value} (hmem : (key, v) ∈ fs)
      (h : Value.Mentions text v) : Value.Mentions text (.obj fs)

namespace Schema

open Fields (Distinct)

/-- The text of the stand-in is in a value, if there is one. -/
def Seen (v : Option Value) : Prop := ∃ x, v = some x ∧ x.Mentions standInText

/-- The text of the stand-in is in a default somewhere in a schema. -/
inductive Supplies : Schema → Prop
  | default {inner : Schema} {d : Value} (h : d.Mentions standInText) :
      Supplies (.withDefault inner d)
  | withDefault {inner : Schema} {d : Value} (h : inner.Supplies) : Supplies (.withDefault inner d)
  | optional {inner : Schema} (h : inner.Supplies) : Supplies (.optional inner)
  | nullable {inner : Schema} (h : inner.Supplies) : Supplies (.nullable inner)
  | preprocessed {inner : Schema} {step : Value → Value} (h : inner.Supplies) :
      Supplies (.preprocessed inner step)
  | first {first second : Schema} (h : first.Supplies) : Supplies (.pipe first second)
  | second {first second : Schema} (h : second.Supplies) : Supplies (.pipe first second)
  | member {members : List Schema} {s : Schema} (hmem : s ∈ members) (h : s.Supplies) :
      Supplies (.union members)
  | item {item : Schema} (h : item.Supplies) : Supplies (.array item)
  | field {fields : List Field} {f : Field} (hmem : f ∈ fields) (h : f.schema.Supplies) :
      Supplies (.object fields)

theorem not_seen_none : ¬ Seen none := fun ⟨_, h, _⟩ => by cases h

theorem seen_some {x : Value} : Seen (some x) ↔ x.Mentions standInText :=
  ⟨fun ⟨_, h, hm⟩ => by cases h; exact hm, fun h => ⟨x, rfl, h⟩⟩

/-- Scalars are not written like the stand-in, so writing them out shows nothing of it. -/
theorem seen_of_stringify {v : Option Value} (h : Seen (v.map stringify)) : Seen v := by
  obtain ⟨y, hy, hm⟩ := h
  obtain ⟨x, rfl, rfl⟩ := Option.map_eq_some_iff.mp hy
  refine ⟨x, rfl, ?_⟩
  have scalar : ∀ t : String, '_' ∉ t.toList → ¬ (Value.str t).Mentions standInText := by
    intro t ht hmentions
    cases hmentions
    exact ht (by decide)
  cases x with
  | null => exact hm
  | str t => exact hm
  | arr vs => exact hm
  | obj fs => exact hm
  | num n => exact absurd hm (scalar _ n.underscore_not_mem_text)
  | bool b => cases b <;> exact absurd hm (scalar _ (by decide))

theorem seen_of_present {path : String} {check : Value → Parsed Value} {v w : Option Value}
    {P : Prop} (hcheck : ∀ x y, check x = .ok y → Seen (some y) → Seen (some x) ∨ P)
    (h : present path check v = .ok w) (hw : Seen w) : Seen v ∨ P := by
  obtain ⟨x, y, rfl, hxy, rfl⟩ := present_ok h
  exact hcheck x y hxy hw

/-- A leaf that only looks at the value shows what was there. -/
theorem seen_of_leaf {path : String} {check : Value → Parsed Value} {v w : Option Value} {P : Prop}
    (hcheck : ∀ x y, check x = .ok y → y = x) (h : present path check v = .ok w) (hw : Seen w) :
    Seen v ∨ P :=
  seen_of_present (fun x y hxy hy => .inl (hcheck x y hxy ▸ hy)) h hw

theorem seen_of_parseItems {check : Option Value → String → Parsed (Option Value)} {P : Prop}
    (hcheck : ∀ v p w, check v p = .ok w → Seen w → Seen v ∨ P) {path : String}
    {vs ws : List Value} {index : Nat} (h : parseItems check path vs index = .ok ws) :
    ∀ w ∈ ws, w.Mentions standInText → (∃ v ∈ vs, v.Mentions standInText) ∨ P := by
  intro w hw hm
  obtain ⟨rs, rfl, hrs⟩ := parseItems_ok h
  obtain ⟨r, hr, rfl⟩ := List.mem_map.mp hw
  cases r with
  | none => cases hm
  | some x =>
    obtain ⟨v, hv, p, hp⟩ := hrs _ hr
    refine (hcheck _ _ _ hp (seen_some.mpr hm)).imp_left fun hseen => ?_
    exact ⟨v, hv, seen_some.mp hseen⟩

mutual

theorem parse_seen : ∀ (s : Schema), s.OnlyStringifies → ∀ {v w : Option Value} {path : String},
    s.parse v path = .ok w → Seen w → Seen v ∨ s.Supplies
  | .optional inner, hs, v, w, path, h, hw => by
    simp only [parse_optional] at h
    split at h
    · cases h; exact absurd hw not_seen_none
    · cases h; exact absurd hw not_seen_none
    · exact (parse_seen inner hs h hw).imp_right .optional
  | .nullable inner, hs, v, w, path, h, hw => by
    simp only [parse_nullable] at h
    split at h
    · cases h; exact .inl hw
    · exact (parse_seen inner hs h hw).imp_right .nullable
  | .withDefault inner d, hs, v, w, path, h, hw => by
    simp only [parse_withDefault] at h
    rcases parse_seen inner hs h hw with hseen | hinner
    · cases v with
      | none =>
        exact .inr (.default (seen_some.mp hseen))
      | some x => exact .inl hseen
    · exact .inr (.withDefault hinner)
  | .preprocessed inner _, ⟨hstep, hs⟩, v, w, path, h, hw => by
    subst hstep
    simp only [parse_preprocessed] at h
    exact (parse_seen inner hs h hw).imp seen_of_stringify .preprocessed
  | .pipe first second, hs, v, w, path, h, hw => by
    simp only [parse_pipe, bind, Except.bind] at h
    split at h
    · cases h
    · next between hbetween =>
      rcases parse_seen second hs.2 h hw with hseen | hsecond
      · exact (parse_seen first hs.1 hbetween hseen).imp_right .first
      · exact .inr (.second hsecond)
  | .union members, hs, v, w, path, h, hw => by
    simp only [parse_union] at h
    exact (parseMembers_seen members hs h hw).imp_right fun ⟨_, hmem, ht⟩ => .member hmem ht
  | .array item, hs, v, w, path, h, hw => by
    simp only [parse_array] at h
    refine seen_of_present (fun x y hxy hy => ?_) h hw
    cases x with
    | arr vs =>
      obtain ⟨ws, hitems, rfl⟩ := map_ok hxy
      cases seen_some.mp hy with
      | item hmem hm =>
        refine (seen_of_parseItems (fun _ _ _ => parse_seen item hs) hitems _ hmem hm).imp ?_ .item
        exact fun ⟨y, hy, hym⟩ => seen_some.mpr (.item hy hym)
    | _ => cases hxy
  | .object fields, hs, v, w, path, h, hw => by
    obtain ⟨fs, out, rfl, rfl, hout⟩ := object_ok h
    cases seen_some.mp hw with
    | entry hmem hm =>
      have hd := parseFields_distinct Fields.distinct_nil hout
      have hget := (Fields.get?_eq_some_iff hd).mpr hmem
      rcases parseFields_seen fields hs hout ⟨_, hget, hm⟩ with hnil | ⟨x, hx, hxm⟩ | ⟨f, hf, ht⟩
      · exact absurd hnil not_seen_none
      · exact .inl (seen_some.mpr (.entry (Fields.mem_of_get? hx) hxm))
      · exact .inr (.field hf ht)
  | .string, _, v, w, path, h, hw => by
    simp only [parse_string] at h
    exact seen_of_leaf (fun x y hxy => by cases x <;> cases hxy; rfl) h hw
  | .number, _, v, w, path, h, hw => by
    simp only [parse_number] at h
    exact seen_of_leaf (fun x y hxy => by cases x <;> cases hxy; rfl) h hw
  | .integer, _, v, w, path, h, hw => by
    simp only [parse_integer] at h
    exact seen_of_leaf (fun x y hxy => by split at hxy <;> cases hxy; rfl) h hw
  | .boolean, _, v, w, path, h, hw => by
    simp only [parse_boolean] at h
    exact seen_of_leaf (fun x y hxy => by cases x <;> cases hxy; rfl) h hw
  | .any, _, v, w, path, h, hw => by
    simp only [parse_any] at h
    exact seen_of_leaf (fun x y hxy => by cases hxy; rfl) h hw
  | .locator, _, v, w, path, h, hw => by
    simp only [parse_locator] at h
    exact seen_of_leaf (fun x y hxy => by cases x <;> cases hxy <;> rfl) h hw
  | .enumeration names, _, v, w, path, h, hw => by
    simp only [parse_enumeration] at h
    refine seen_of_leaf (fun x y hxy => ?_) h hw
    split at hxy
    · split at hxy <;> cases hxy
      rfl
    · cases hxy

theorem parseMembers_seen : ∀ (members : List Schema), MembersEachStep (· = stringify) members →
    ∀ {v w : Option Value} {path : String} {last : ParamError},
      parseMembers members v path last = .ok w → Seen w → Seen v ∨ ∃ s ∈ members, s.Supplies
  | [], _, v, w, path, last, h, hw => by simp only [parseMembers_nil] at h; cases h
  | s :: rest, hs, v, w, path, last, h, hw => by
    simp only [parseMembers_cons] at h
    split at h
    · next x hx =>
      cases h
      exact (parse_seen s hs.1 hx hw).imp_right fun ht => ⟨s, List.mem_cons_self .., ht⟩
    · refine (parseMembers_seen rest hs.2 h hw).imp_right fun ⟨t, hmem, ht⟩ => ?_
      exact ⟨t, List.mem_cons_of_mem _ hmem, ht⟩

/-- An entry of the outcome is an entry from before or what a field made of the entry under its
name. -/
theorem parseFields_seen : ∀ (fields : List Field), FieldsEachStep (· = stringify) fields →
    ∀ {fs out out' : Object} {path key : String},
      parseFields fields fs path out = .ok out' → Seen (Fields.get? key out') →
        Seen (Fields.get? key out) ∨ Seen (Fields.get? key fs) ∨ ∃ f ∈ fields, f.schema.Supplies
  | [], _, fs, out, out', path, key, h, hkey => by
    simp only [parseFields_nil] at h
    cases h
    exact .inl hkey
  | .mk name schema desc loc :: rest, hs, fs, out, out', path, key, h, hkey => by
    simp only [parseFields_cons, bind, Except.bind] at h
    have later : (∃ f ∈ rest, f.schema.Supplies) →
        ∃ f ∈ Field.mk name schema desc loc :: rest, f.schema.Supplies :=
      fun ⟨f, hf, ht⟩ => ⟨f, List.mem_cons_of_mem _ hf, ht⟩
    split at h
    · cases h
    · next w hw =>
      cases w with
      | none => exact (parseFields_seen rest hs.2 h hkey).imp_right (.imp_right later)
      | some x =>
        rcases parseFields_seen rest hs.2 h hkey with hout | hrest
        · rw [Fields.get?_insert] at hout
          split at hout
          · next heq =>
            subst heq
            refine .inr ((parse_seen schema hs.1 hw hout).imp_right fun ht => ?_)
            exact ⟨_, List.mem_cons_self .., ht⟩
          · exact .inl hout
        · exact .inr (hrest.imp_right later)

end

/-! ## Objects -/

mutual

/-- What a schema makes of an object has the text of the stand-in only under keys that had it
before, defaults apart. -/
theorem parse_entries : ∀ (s : Schema), s.OnlyStringifies → ∀ {fs gs : Object}
    {path key : String}, Distinct fs → s.parse (some (.obj fs)) path = .ok (some (.obj gs)) →
      Seen (Fields.get? key gs) → Seen (Fields.get? key fs) ∨ s.Supplies
  | .optional inner, hs, _, _, _, _, hd, h, hkey => by
    simp only [parse_optional] at h
    exact (parse_entries inner hs hd h hkey).imp_right .optional
  | .nullable inner, hs, _, _, _, _, hd, h, hkey => by
    simp only [parse_nullable] at h
    exact (parse_entries inner hs hd h hkey).imp_right .nullable
  | .withDefault inner _, hs, _, _, _, _, hd, h, hkey => by
    simp only [parse_withDefault, Option.some_or] at h
    exact (parse_entries inner hs hd h hkey).imp_right .withDefault
  | .preprocessed inner _, ⟨hstep, hs⟩, _, _, _, _, hd, h, hkey => by
    subst hstep
    simp only [parse_preprocessed, Option.map_some, stringify] at h
    exact (parse_entries inner hs hd h hkey).imp_right .preprocessed
  | .pipe first second, hs, fs, _, path, key, hd, h, hkey => by
    simp only [parse_pipe, bind, Except.bind] at h
    split at h
    · cases h
    · next between hbetween =>
      obtain ⟨gs, rfl, hd'⟩ := parse_distinct hs.1 hd hbetween
      rcases parse_entries second hs.2 hd' h hkey with hseen | hsecond
      · exact (parse_entries first hs.1 hd hbetween hseen).imp_right .first
      · exact .inr (.second hsecond)
  | .union members, hs, _, _, _, _, hd, h, hkey => by
    simp only [parse_union] at h
    exact (parseMembers_entries members hs hd h hkey).imp_right fun ⟨_, hmem, ht⟩ => .member hmem ht
  | .object fields, hs, fs, _, path, key, _, h, hkey => by
    obtain ⟨_, _, hfs, hout, hfields⟩ := object_ok h
    cases hfs
    cases hout
    rcases parseFields_seen fields hs hfields hkey with hnil | hseen | ⟨f, hf, ht⟩
    · exact absurd hnil not_seen_none
    · exact .inl hseen
    · exact .inr (.field hf ht)
  | .any, _, _, _, _, _, _, h, hkey => by
    simp only [parse_any, present] at h
    cases h
    exact .inl hkey
  | .locator, _, _, _, _, _, _, h, hkey => by
    simp only [parse_locator, present] at h
    cases h
    exact .inl hkey
  | .string, _, _, _, _, _, _, h, _ => by simp only [parse_string, present] at h; cases h
  | .number, _, _, _, _, _, _, h, _ => by simp only [parse_number, present] at h; cases h
  | .integer, _, _, _, _, _, _, h, _ => by simp only [parse_integer, present] at h; cases h
  | .boolean, _, _, _, _, _, _, h, _ => by simp only [parse_boolean, present] at h; cases h
  | .enumeration _, _, _, _, _, _, _, h, _ => by simp only [parse_enumeration, present] at h; cases h
  | .array _, _, _, _, _, _, _, h, _ => by simp only [parse_array, present] at h; cases h

theorem parseMembers_entries : ∀ (members : List Schema),
    MembersEachStep (· = stringify) members → ∀ {fs gs : Object} {path key : String}
    {last : ParamError}, Distinct fs →
      parseMembers members (some (.obj fs)) path last = .ok (some (.obj gs)) →
        Seen (Fields.get? key gs) → Seen (Fields.get? key fs) ∨ ∃ s ∈ members, s.Supplies
  | [], _, _, _, _, _, _, _, h, _ => by simp only [parseMembers_nil] at h; cases h
  | s :: rest, hs, _, _, _, _, _, hd, h, hkey => by
    simp only [parseMembers_cons] at h
    split at h
    · next x hx =>
      cases h
      exact (parse_entries s hs.1 hd hx hkey).imp_right fun ht => ⟨s, List.mem_cons_self .., ht⟩
    · refine (parseMembers_entries rest hs.2 hd h hkey).imp_right fun ⟨t, hmem, ht⟩ => ?_
      exact ⟨t, List.mem_cons_of_mem _ hmem, ht⟩

end

/-! ## Two objects with different targets -/

variable {names : List String} {fs gs : Object} {key : String} {v : Value}

/-- The same keys in the same order; under each the same value, or, under some of the names, two
values neither of which is `null`. -/
structure AgreeExcept (names : List String) (fs gs : Object) : Prop where
  keys_eq : Fields.keys fs = Fields.keys gs
  entries : ∀ key, Fields.get? key fs = Fields.get? key gs ∨
    key ∈ names ∧ (∃ v, Fields.get? key fs = some v ∧ v ≠ .null) ∧
      ∃ w, Fields.get? key gs = some w ∧ w ≠ .null

namespace AgreeExcept

theorem mem_keys_targets_iff (h : AgreeExcept names fs gs) (key : String) :
    key ∈ Fields.keys (targets names fs) ↔ key ∈ Fields.keys (targets names gs) := by
  rw [mem_keys_targets, mem_keys_targets]
  rcases h.entries key with heq | ⟨-, hv, hw⟩
  · rw [heq]
  · exact ⟨fun ⟨hmem, _⟩ => ⟨hmem, hw⟩, fun ⟨hmem, _⟩ => ⟨hmem, hv⟩⟩

/-- Off the targets nothing differs. -/
theorem get?_eq (h : AgreeExcept names fs gs) (hkey : key ∉ Fields.keys (targets names fs)) :
    Fields.get? key fs = Fields.get? key gs := by
  rcases h.entries key with heq | ⟨hmem, hv, -⟩
  · exact heq
  · exact absurd (mem_keys_targets.mpr ⟨hmem, hv⟩) hkey

theorem keys_targets (h : AgreeExcept names fs gs) :
    Fields.keys (targets names fs) = Fields.keys (targets names gs) := by
  simp only [Fields.keys, targets, List.map_filterMap]
  congr 1
  funext name
  rcases h.entries name with heq | ⟨-, ⟨v, hv, hvnull⟩, w, hw, hwnull⟩
  · rw [heq]
  · rw [hv, hw]
    cases v with
    | null => exact absurd rfl hvnull
    | _ =>
      cases w with
      | null => exact absurd rfl hwnull
      | _ => rfl

/-- The check sees the same object. -/
theorem substitute_eq (h : AgreeExcept names fs gs) (hd : Distinct fs) :
    substitute (targets names fs) fs = substitute (targets names gs) gs := by
  refine (distinct_substitute hd).ext ?_ fun key => ?_
  · rw [substitute_eq_merge, substitute_eq_merge]
    refine Fields.keys_merge_congr h.keys_eq ?_
    rw [keys_standIns, keys_standIns, h.keys_targets]
  · rw [get?_substitute, get?_substitute]
    by_cases hkey : key ∈ Fields.keys (targets names fs)
    · rw [if_pos hkey, if_pos ((h.mem_keys_targets_iff key).mp hkey)]
    · rw [if_neg hkey, if_neg (fun hmem => hkey ((h.mem_keys_targets_iff key).mpr hmem)),
        h.get?_eq hkey]

end AgreeExcept

/-- An object comes out with its targets as they were and with nothing of what stood in for them:
the text of the stand-in is under a key only if it was there or a default has it, and nowhere if
neither the object nor the schema has it. -/
structure Restored (s : Schema) (fs fs' : Object) : Prop where
  distinct : Distinct fs'
  verbatim : ∀ key ∈ s.locatorNames, ∀ v, Fields.get? key fs = some v → v ≠ .null →
    Fields.get? key fs' = some v
  unseen : ∀ key, Seen (Fields.get? key fs') → Seen (Fields.get? key fs) ∨ s.Supplies
  hidden : ¬ s.Supplies → ¬ (Value.obj fs).Mentions standInText →
    ¬ (Value.obj fs').Mentions standInText

/-- What is nowhere under the keys of an object is nowhere in it. -/
theorem not_mentions_of_unseen {s : Schema} {fs' : Object} (hd : Distinct fs')
    (hunseen : ∀ key, Seen (Fields.get? key fs') → Seen (Fields.get? key fs) ∨ s.Supplies)
    (hs : ¬ s.Supplies) (hfs : ¬ (Value.obj fs).Mentions standInText) :
    ¬ (Value.obj fs').Mentions standInText := by
  intro hm
  cases hm with
  | entry hmem hm =>
    have hget := (Fields.get?_eq_some_iff hd).mpr hmem
    rcases hunseen _ (hget ▸ seen_some.mpr hm) with ⟨x, hx, hxm⟩ | hsupplies
    · exact hfs (.entry (Fields.mem_of_get? hx) hxm)
    · exact hs hsupplies

theorem restored_of_parse {s : Schema} {out : Object} (hs : s.OnlyStringifies) (hd : Distinct fs)
    (h : s.parse (some (.obj (substitute (targets s.locatorNames fs) fs))) "" =
      .ok (some (.obj out))) :
    Restored s fs (Fields.merge out (targets s.locatorNames fs)) := by
  obtain ⟨_, heq, hout⟩ := parse_distinct hs (distinct_substitute hd) h
  cases heq
  have hdistinct : Distinct (Fields.merge out (targets s.locatorNames fs)) :=
    Fields.distinct_merge hout
  have hunseen : ∀ key, Seen (Fields.get? key (Fields.merge out (targets s.locatorNames fs))) →
      Seen (Fields.get? key fs) ∨ s.Supplies := by
    intro key hseen
    by_cases hkey : key ∈ Fields.keys (targets s.locatorNames fs)
    · obtain ⟨hmem, v, hget, hnull⟩ := mem_keys_targets.mp hkey
      rw [get?_restored_of_target out hmem hget hnull] at hseen
      exact .inl (hget ▸ hseen)
    · rw [Fields.get?_merge_of_not_mem hkey] at hseen
      have hentries := parse_entries s hs (distinct_substitute hd) h hseen
      rwa [get?_substitute, if_neg hkey] at hentries
  exact ⟨hdistinct, fun key hmem v hget hnull => get?_restored_of_target out hmem hget hnull,
    hunseen, not_mentions_of_unseen hdistinct hunseen⟩

/-- **Targets are opaque**, where a schema applies no function but the one that writes scalars out:
objects that differ in targets only have the same error, or results with the same keys that differ
in these targets only, each with its own targets in it and without the stand-in. -/
theorem normalize_opaque (s : Schema) (hs : s.OnlyStringifies) {fs gs : Object} (hd : Distinct fs)
    (h : AgreeExcept s.locatorNames fs gs) :
    Agree (fun v w => ∃ fs' gs', v = .obj fs' ∧ w = .obj gs' ∧
        Fields.keys fs' = Fields.keys gs' ∧
        (∀ key, Fields.get? key fs = Fields.get? key gs →
          Fields.get? key fs' = Fields.get? key gs') ∧
        Restored s fs fs' ∧ Restored s gs gs')
      (s.normalize (.obj fs)) (s.normalize (.obj gs)) := by
  have hdg : Distinct gs := by
    unfold Fields.Distinct
    exact h.keys_eq ▸ hd
  have hsame := h.substitute_eq hd
  rw [normalize_obj, normalize_obj, ← hsame]
  cases hparse : s.parse (some (.obj (substitute (targets s.locatorNames fs) fs))) "" with
  | error e => exact .error e
  | ok w =>
    obtain ⟨out, rfl, -⟩ := parse_distinct hs (distinct_substitute hd) hparse
    refine .ok ⟨_, _, rfl, rfl, Fields.keys_merge_congr rfl h.keys_targets, fun key heq => ?_,
      restored_of_parse hs hd hparse, restored_of_parse hs hdg (hsame ▸ hparse)⟩
    by_cases hkey : key ∈ Fields.keys (targets s.locatorNames fs)
    · obtain ⟨hmem, v, hget, hnull⟩ := mem_keys_targets.mp hkey
      rw [get?_restored_of_target out hmem hget hnull,
        get?_restored_of_target out hmem (heq ▸ hget) hnull]
    · have hkey' := fun hmem => hkey ((h.mem_keys_targets_iff key).mpr hmem)
      rw [Fields.get?_merge_of_not_mem hkey, Fields.get?_merge_of_not_mem hkey']

/-- A drag from a target, by a distance, in two stages of which the second drops what it does not
know. -/
def drag : Schema :=
  .pipe
    (.object [.target "from", .plain "by" (.withDefault .integer (.ofNat 1)),
      .plain "note" .string])
    (.nullable (.object [(Field.target "from").optional, .plain "by" .any]))

/-- One of the two is no target at all. Neither is looked at, and both come out. -/
theorem normalize_opaque_drag :
    let fs : Object := [("note", .str "n"), ("from", .str "the left edge")]
    let gs : Object := [("note", .str "n"), ("from", .arr [])]
    drag.OnlyStringifies ∧ Distinct fs ∧ AgreeExcept drag.locatorNames fs gs ∧
      drag.normalize (.obj gs) = .ok (.obj [("from", .arr []), ("by", .ofNat 1)]) ∧
      Agree (fun v w => ∃ fs' gs', v = .obj fs' ∧ w = .obj gs' ∧
          Fields.keys fs' = Fields.keys gs' ∧
          (∀ key, Fields.get? key fs = Fields.get? key gs →
            Fields.get? key fs' = Fields.get? key gs') ∧
          Restored drag fs fs' ∧ Restored drag gs gs')
        (drag.normalize (.obj fs)) (drag.normalize (.obj gs)) := by
  intro fs gs
  have hs : drag.OnlyStringifies := by
    simp [drag, OnlyStringifies, EachStep, FieldsEachStep, Field.target, Field.optional,
      Field.plain, Field.name, Field.schema, Field.description, Field.locatable]
  have hd : Distinct fs := by decide
  have h : AgreeExcept drag.locatorNames fs gs := by
    refine ⟨rfl, fun key => ?_⟩
    by_cases hkey : "from" = key
    · subst hkey
      refine .inr ⟨by decide, ⟨.str "the left edge", rfl, by simp⟩, .arr [], rfl, by simp⟩
    · refine .inl ?_
      simp [fs, gs, Fields.get?, hkey]
  exact ⟨hs, hd, h, rfl, normalize_opaque drag hs hd h⟩

end Schema

end Runbook
