/-
Values up to the order in which entries stand.

Two objects may differ in the order of their own entries (`Value.Reordered`), or two values in that
of the entries of any object in them (`Value.Rearranged`). A function that takes the one kind of
difference to no other kind does not mind the order (`Value.OrderFree`). The program's own equality
ignores the order too: by it, objects are the same if every key finds the same in both
(`Value.sameAs_obj`).
-/
import Mathlib.Data.List.Forall2
import Mathlib.Data.List.Perm.Subperm
import Runbook.Proofs.Fields
import Runbook.Value

namespace Runbook

open Fields (get? keys Distinct)

/-! ## Entries that are related key by key -/

/-- Distinct keys on both sides, the same ones, and related values under each. -/
structure Fields.Related {α β : Type} (R : α → β → Prop) (fs : Fields α) (gs : Fields β) :
    Prop where
  left : Distinct fs
  right : Distinct gs
  entries : ∀ key, Option.Rel R (get? key fs) (get? key gs)

namespace Fields.Related

variable {α β : Type} {R : α → β → Prop} {fs : Fields α} {gs : Fields β}

theorem nil : Related R ([] : Fields α) ([] : Fields β) :=
  ⟨distinct_nil, distinct_nil, fun _ => .none⟩

theorem insert (h : Related R fs gs) (key : String) {v : α} {w : β} (hvw : R v w) :
    Related R (Fields.insert key v fs) (Fields.insert key w gs) := by
  refine ⟨distinct_insert h.left, distinct_insert h.right, fun key' => ?_⟩
  rw [get?_insert, get?_insert]
  split
  · exact .some hvw
  · exact h.entries key'

theorem merge {R : α → α → Prop} {fs gs : Fields α} (hR : ∀ a, R a a) (h : Related R fs gs)
    (es : Fields α) : Related R (Fields.merge fs es) (Fields.merge gs es) := by
  induction es generalizing fs gs with
  | nil => exact h
  | cons e es ih => exact ih (h.insert e.1 (hR e.2))

theorem of_reordered {R : α → α → Prop} {fs gs : Fields α} (hR : ∀ a, R a a)
    (h : Reordered fs gs) : Related R fs gs := by
  refine ⟨h.distinct, h.distinct_right, fun key => ?_⟩
  rw [h.get?_eq]
  cases get? key gs with
  | none => exact .none
  | some v => exact .some (hR v)

end Fields.Related

namespace Value

/-! ## Other orders -/

/-- The same value, or two objects with the same entries in another order. -/
inductive Reordered : Value → Value → Prop
  | refl (v : Value) : Reordered v v
  | obj {fs gs : Object} (h : Fields.Reordered fs gs) : Reordered (.obj fs) (.obj gs)

/-- The same value, but for the order of entries in the objects of which it is made, at any
depth. -/
inductive Rearranged : Value → Value → Prop
  | refl (v : Value) : Rearranged v v
  | arr {vs ws : List Value} (h : List.Forall₂ Rearranged vs ws) : Rearranged (.arr vs) (.arr ws)
  | obj {fs gs : Object} (hf : Distinct fs) (hg : Distinct gs)
      (h : ∀ key, Option.Rel Rearranged (get? key fs) (get? key gs)) :
      Rearranged (.obj fs) (.obj gs)

/-- The function makes no more than the same difference of a difference in order. -/
def OrderFree (f : Value → Value) : Prop := ∀ v w, v.Rearranged w → (f v).Rearranged (f w)

variable {fs gs : Object}

theorem Rearranged.of_related (h : Fields.Related Rearranged fs gs) :
    Rearranged (.obj fs) (.obj gs) :=
  .obj h.left h.right h.entries

/-! ## The program's equality -/

theorem sameEntries_iff : sameEntries fs gs = true ↔
    ∀ e ∈ fs, ∃ w, get? e.1 gs = some w ∧ sameAs e.2 w = true := by
  induction fs with
  | nil => simp [sameEntries]
  | cons e rest ih =>
    obtain ⟨key, v⟩ := e
    rw [sameEntries, Bool.and_eq_true, ih, List.forall_mem_cons]
    refine and_congr_left fun _ => ?_
    cases get? key gs <;> simp

/-- Objects are the same if each key finds the same in both, in whatever order their entries
stand. -/
theorem sameAs_obj (hf : Distinct fs) (hg : Distinct gs) : sameAs (.obj fs) (.obj gs) = true ↔
    ∀ key, Option.Rel (fun v w => sameAs v w = true) (get? key fs) (get? key gs) := by
  rw [sameAs, Bool.and_eq_true, beq_iff_eq, sameEntries_iff]
  constructor
  · rintro ⟨hlength, hentries⟩ key
    have hsubset : keys fs ⊆ keys gs := by
      intro key hkey
      obtain ⟨e, he, rfl⟩ := List.mem_map.mp hkey
      obtain ⟨w, hw, -⟩ := hentries e he
      exact Fields.mem_keys_of_get? hw
    -- as many keys, so no others
    have hperm : (keys fs).Perm (keys gs) :=
      (List.subperm_of_subset hf hsubset).perm_of_length_le (by simp [keys, hlength])
    cases hget : get? key fs with
    | none =>
      rw [Fields.get?_eq_none_iff.mpr fun hmem =>
        Fields.get?_eq_none_iff.mp hget (hperm.mem_iff.mpr hmem)]
      exact .none
    | some v =>
      obtain ⟨w, hw, hsame⟩ := hentries _ (Fields.mem_of_get? hget)
      rw [hw]
      exact .some hsame
  · intro h
    have hmem : ∀ key, key ∈ keys fs ↔ key ∈ keys gs := by
      intro key
      have hkey := h key
      rw [← not_iff_not, ← Fields.get?_eq_none_iff, ← Fields.get?_eq_none_iff]
      generalize get? key fs = x at hkey
      generalize get? key gs = y at hkey
      cases hkey <;> simp
    refine ⟨?_, fun e he => ?_⟩
    · simpa [keys] using ((List.perm_ext_iff_of_nodup hf hg).mpr hmem).length_eq
    · have hkey := h e.1
      rw [(Fields.get?_eq_some_iff hf).mpr he] at hkey
      generalize get? e.1 gs = y at hkey
      cases hkey with
      | some hsame => exact ⟨_, rfl, hsame⟩

end Value

end Runbook
