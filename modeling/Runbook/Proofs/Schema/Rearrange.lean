/-
The order of entries is nothing to a schema whose functions do not mind it.

What a function makes of two values that differ in the order of entries only may differ in that
order further down. So the difference is taken at all depths from the start, and as an induction on
the schema shows, a check never makes more of it than such a difference (`parse_rearranged`). Nor
does normalization (`normalize_rearranged`), where the targets are the same on both sides.
-/
import Runbook.Proofs.Schema.Reorder

namespace Runbook

open Fields (get? Distinct Related)
open Value (Rearranged OrderFree)

namespace Schema

/-! ## Checks of values that are there -/

variable {v w : Option Value} {path : String} {fs gs : Object}

theorem present_rearranged {check : Value → Parsed Value}
    (hcheck : ∀ x y, x.Rearranged y → Agree Rearranged (check x) (check y))
    (h : Option.Rel Rearranged v w) :
    Agree (Option.Rel Rearranged) (present path check v) (present path check w) := by
  cases h with
  | none => exact .error _
  | some h => exact (hcheck _ _ h).map fun _ _ h' => .some h'

/-- A leaf that does not look into objects and arrays refuses these by their kind. -/
theorem leaf_rearranged {check : Value → Parsed Value} {wanted : String}
    (h : Option.Rel Rearranged v w)
    (harr : ∀ vs, check (.arr vs) = wrongKind path wanted (.arr vs))
    (hobj : ∀ fs, check (.obj fs) = wrongKind path wanted (.obj fs)) :
    Agree (Option.Rel Rearranged) (present path check v) (present path check w) := by
  refine present_rearranged (fun x y hxy => ?_) h
  cases hxy with
  | refl => exact .refl .refl _
  | arr h =>
    rw [harr, harr]
    exact .error _
  | obj hf hg h =>
    rw [hobj, hobj]
    exact .error _

theorem ofOption_rearranged (h : Option.Rel Rearranged v w) :
    (Value.ofOption v).Rearranged (Value.ofOption w) := by
  cases h with
  | none => exact .refl _
  | some h => exact h

theorem parseItems_rearranged {check : Option Value → String → Parsed (Option Value)}
    (hcheck : ∀ x y p, x.Rearranged y →
      Agree (Option.Rel Rearranged) (check (some x) p) (check (some y) p)) {vs ws : List Value}
    (h : List.Forall₂ Rearranged vs ws) (path : String) (index : Nat) :
    Agree (List.Forall₂ Rearranged) (parseItems check path vs index)
      (parseItems check path ws index) := by
  induction h generalizing index with
  | nil => exact .ok .nil
  | cons hvw _ ih =>
    refine (hcheck _ _ _ hvw).bind fun v w hanswers => (ih (index + 1)).bind fun vs ws hitems => ?_
    exact .ok (.cons (ofOption_rearranged hanswers) hitems)

/-! ## Schemas -/

mutual

theorem parse_rearranged : ∀ (s : Schema), s.IsOrderFree → ∀ {v w : Option Value},
    Option.Rel Rearranged v w → ∀ path,
      Agree (Option.Rel Rearranged) (s.parse v path) (s.parse w path)
  | .optional inner, hs, _, _, h, path => by
    simp only [parse_optional]
    cases h with
    | none => exact .ok .none
    | some h =>
      have hinner := parse_rearranged inner hs (.some h) path
      cases h with
      | refl v => exact .refl (fun w => by cases w; exacts [.none, .some (.refl _)]) _
      | arr h => exact hinner
      | obj hf hg h => exact hinner
  | .nullable inner, hs, _, _, h, path => by
    simp only [parse_nullable]
    have hinner := parse_rearranged inner hs h path
    cases h with
    | none => exact hinner
    | some h =>
      cases h with
      | refl v => exact .refl (fun w => by cases w; exacts [.none, .some (.refl _)]) _
      | arr h => exact hinner
      | obj hf hg h => exact hinner
  | .withDefault inner d, hs, _, _, h, path => by
    simp only [parse_withDefault]
    refine parse_rearranged inner hs ?_ path
    cases h with
    | none => exact .some (.refl d)
    | some h => exact .some h
  | .preprocessed inner step, ⟨hstep, hs⟩, _, _, h, path => by
    simp only [parse_preprocessed]
    refine parse_rearranged inner hs ?_ path
    cases h with
    | none => exact .none
    | some h => exact .some (hstep _ _ h)
  | .pipe first second, hs, _, _, h, path => by
    simp only [parse_pipe]
    exact (parse_rearranged first hs.1 h path).bind fun _ _ h' =>
      parse_rearranged second hs.2 h' path
  | .union members, hs, _, _, h, path => by
    simp only [parse_union]
    exact parseMembers_rearranged members hs h path _
  | .array item, hs, _, _, h, path => by
    simp only [parse_array]
    refine present_rearranged (fun x y hxy => ?_) h
    cases hxy with
    | refl => exact .refl .refl _
    | obj hf hg h => exact .error _
    | arr hitems =>
      refine Agree.map (parseItems_rearranged (fun _ _ p hvw => ?_) hitems path 0) fun _ _ => .arr
      exact parse_rearranged item hs (.some hvw) p
  | .object fields, hs, _, _, h, path => by
    simp only [parse_object]
    refine present_rearranged (fun x y hxy => ?_) h
    cases hxy with
    | refl => exact .refl .refl _
    | arr h => exact .error _
    | obj hf hg hentries =>
      exact (parseFields_rearranged fields hs hentries path .nil).map fun _ _ => .of_related
  | .any, _, _, _, h, path => by
    simp only [parse_any]
    exact present_rearranged (fun _ _ hxy => .ok hxy) h
  | .locator, _, _, _, h, path => by
    simp only [parse_locator]
    refine present_rearranged (fun x y hxy => ?_) h
    cases hxy with
    | refl => exact .refl .refl _
    | arr h => exact .error _
    | obj hf hg hentries => exact .ok (.obj hf hg hentries)
  | .string, _, _, _, h, path => by
    simp only [parse_string]
    exact leaf_rearranged h (fun _ => rfl) fun _ => rfl
  | .number, _, _, _, h, path => by
    simp only [parse_number]
    exact leaf_rearranged h (fun _ => rfl) fun _ => rfl
  | .integer, _, _, _, h, path => by
    simp only [parse_integer]
    exact leaf_rearranged h (fun _ => rfl) fun _ => rfl
  | .boolean, _, _, _, h, path => by
    simp only [parse_boolean]
    exact leaf_rearranged h (fun _ => rfl) fun _ => rfl
  | .enumeration _, _, _, _, h, path => by
    simp only [parse_enumeration]
    exact leaf_rearranged h (fun _ => rfl) fun _ => rfl

theorem parseMembers_rearranged : ∀ (members : List Schema), MembersEachStep OrderFree members →
    ∀ {v w : Option Value}, Option.Rel Rearranged v w → ∀ path last,
      Agree (Option.Rel Rearranged) (parseMembers members v path last)
        (parseMembers members w path last)
  | [], _, _, _, _, path, last => by simp only [parseMembers_nil]; exact .error last
  | s :: rest, hs, v, w, h, path, last => by
    have hmember := parse_rearranged s hs.1 h path
    simp only [parseMembers_cons]
    generalize s.parse v path = x at hmember
    generalize s.parse w path = y at hmember
    cases hmember with
    | ok h' => exact .ok h'
    | error e => exact parseMembers_rearranged rest hs.2 h path e

/-- Every field takes what it finds under its name from the one object and from the other. -/
theorem parseFields_rearranged : ∀ (fields : List Field), FieldsEachStep OrderFree fields →
    ∀ {fs gs : Object}, (∀ key, Option.Rel Rearranged (get? key fs) (get? key gs)) → ∀ path
      {out out' : Object}, Related Rearranged out out' →
        Agree (Related Rearranged) (parseFields fields fs path out)
          (parseFields fields gs path out')
  | [], _, _, _, _, _, _, _, hout => by simp only [parseFields_nil]; exact .ok hout
  | .mk name schema _ _ :: rest, hs, fs, gs, h, path, out, out', hout => by
    simp only [parseFields_cons]
    refine (parse_rearranged schema hs.1 (h name) _).bind fun v w hvw => ?_
    cases hvw with
    | none => exact parseFields_rearranged rest hs.2 h path hout
    | some hvw => exact parseFields_rearranged rest hs.2 h path (hout.insert name hvw)

end

/-! ## Normalization -/

theorem restore_rearranged (entries : List (String × Value)) {x y : Value} (h : x.Rearranged y) :
    (restore entries x).Rearranged (restore entries y) := by
  cases h with
  | refl => exact .refl _
  | arr h => exact .arr h
  | obj hf hg h => exact .of_related (Related.merge .refl ⟨hf, hg, h⟩ entries)

theorem normalize_rearranged {s : Schema} (hs : s.IsOrderFree) (h : Fields.Reordered fs gs) :
    Agree Rearranged (s.normalize (.obj fs)) (s.normalize (.obj gs)) := by
  rw [normalize_obj, normalize_obj, ← targets_congr fun key _ => h.get?_eq key, substitute_eq_merge,
    substitute_eq_merge]
  have hmerged := Related.of_reordered Rearranged.refl (h.merge
    ((targets s.locatorNames fs).map fun e => (e.1, standIn)))
  refine (parse_rearranged s hs (.some (.of_related hmerged)) "").map fun _ _ hanswers => ?_
  exact restore_rearranged _ (ofOption_rearranged hanswers)

end Schema

end Runbook
