/-
Targets during a check, and after it.

The check of an object has the stand-in under the key of every target that is there, and the
other entries as they are (`get?_substitute`); afterwards each target is back under its key
(`get?_restored_of_target`). Nothing else happens to an object on the way (`normalize_obj`).
-/
import Mathlib.Data.List.Basic
import Runbook.Proofs.Fields
import Runbook.Schema.Normalize

namespace Runbook.Schema

open Fields (Distinct)

variable {names : List String} {fs gs : Object} {key : String} {v : Value}

theorem substitute_eq_merge (entries : List (String × Value)) (fs : Object) :
    substitute entries fs = Fields.merge fs (entries.map fun e => (e.1, standIn)) := by
  simp only [substitute, Fields.merge, List.foldl_map]

/-- Normalizing an object is parsing it with the stand-in under the locatable
entries and putting these back, also where nothing is locatable. -/
theorem normalize_obj (s : Schema) (fs : Object) : s.normalize (.obj fs) =
    (s.parse (some (.obj (substitute (targets s.locatorNames fs) fs))) "").map fun w =>
      restore (targets s.locatorNames fs) (Value.ofOption w) := by
  unfold normalize
  cases s.locatorNames with
  | nil =>
    have restored : ∀ v, restore [] v = v := by
      intro v
      cases v <;> rfl
    simp only [targets, List.filterMap_nil, substitute, List.foldl_nil, restored]
  | cons name names =>
    simp only [bind, Except.bind]
    cases s.parse (some (.obj (substitute (targets (name :: names) fs) fs))) "" <;> rfl

theorem targets_congr (h : ∀ name ∈ names, Fields.get? name fs = Fields.get? name gs) :
    targets names fs = targets names gs :=
  List.filterMap_congr fun name hname => by rw [h name hname]

theorem mem_targets :
    (key, v) ∈ targets names fs ↔ key ∈ names ∧ Fields.get? key fs = some v ∧ v ≠ .null := by
  simp only [targets, List.mem_filterMap]
  constructor
  · rintro ⟨name, hmem, hname⟩
    split at hname
    · cases hname
    · cases hname
    · next w hw hget =>
      cases hname
      exact ⟨hmem, hget, hw⟩
  · rintro ⟨hmem, hget, hnull⟩
    refine ⟨key, hmem, ?_⟩
    rw [hget]
    cases v with
    | null => exact absurd rfl hnull
    | _ => rfl

theorem mem_keys_targets : key ∈ Fields.keys (targets names fs) ↔
    key ∈ names ∧ ∃ v, Fields.get? key fs = some v ∧ v ≠ .null := by
  unfold Fields.keys
  rw [List.mem_map]
  constructor
  · rintro ⟨⟨_, v⟩, hmem, rfl⟩
    obtain ⟨hname, h⟩ := mem_targets.mp hmem
    exact ⟨hname, v, h⟩
  · rintro ⟨hname, v, h⟩
    exact ⟨(key, v), mem_targets.mpr ⟨hname, h⟩, rfl⟩

theorem get?_restored_of_target (fs' : Object) (hmem : key ∈ names)
    (hget : Fields.get? key fs = some v) (hnull : v ≠ .null) :
    Fields.get? key (Fields.merge fs' (targets names fs)) = some v := by
  refine Fields.get?_merge_of_mem (mem_keys_targets.mpr ⟨hmem, v, hget, hnull⟩) fun w hw => ?_
  exact Option.some.inj ((mem_targets.mp hw).2.1.symm.trans hget)

theorem keys_standIns (entries : List (String × Value)) :
    Fields.keys (entries.map fun e => (e.1, standIn)) = Fields.keys entries := by
  simp [Fields.keys]

theorem get?_substitute : Fields.get? key (substitute (targets names fs) fs) =
    if key ∈ Fields.keys (targets names fs) then some standIn else Fields.get? key fs := by
  have hkeys := keys_standIns (targets names fs)
  rw [substitute_eq_merge]
  split
  · next hmem =>
    refine Fields.get?_merge_of_mem (hkeys ▸ hmem) fun w hw => ?_
    obtain ⟨e, -, he⟩ := List.mem_map.mp hw
    exact (Prod.mk.inj he).2.symm
  · next hmem => exact Fields.get?_merge_of_not_mem (hkeys ▸ hmem)

theorem distinct_substitute {entries : List (String × Value)} (hd : Distinct fs) :
    Distinct (substitute entries fs) := by
  rw [substitute_eq_merge]
  exact Fields.distinct_merge hd

end Runbook.Schema
