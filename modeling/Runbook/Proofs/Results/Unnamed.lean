/-
Results without a name.

The number of such a result counts those without a name before it and nothing else. Two of them
never have one number, but a name may be the text of any number. So a result without a name takes
the place of another exactly if the other was given its number as a name (`replaces_none_iff`), and
nothing else that is held is touched, however many of them follow (`get?_after_unnamed`).
-/
import Mathlib
import Runbook.Proofs.Results

namespace Runbook

open Fields (get?)

namespace Recording

variable {rs : List Recording} {n : Nat}

/-- A result was given the number as its name. -/
def NamedAs (rs : List Recording) (n : Nat) : Prop := ∃ x ∈ rs, x.name = some (toString n)

theorem namedAs_concat {x : Recording} :
    NamedAs (rs ++ [x]) n ↔ NamedAs rs n ∨ x.name = some (toString n) := by
  simp [NamedAs, or_and_right, exists_or]

/-- The keys that are numbers: those that were given out, and those that came as names. -/
theorem number_mem_keys_keyed :
    toString n ∈ Fields.keys (keyed rs) ↔ n < rs.countP isUnnamed ∨ NamedAs rs n := by
  induction rs using List.reverseRecOn with
  | nil => simp [keyed, Fields.keys, NamedAs]
  | append_singleton rs x ih =>
    have hkeys : toString n ∈ Fields.keys (keyed (rs ++ [x])) ↔
        toString n ∈ Fields.keys (keyed rs) ∨
          toString n = x.name.getD (toString (rs.countP isUnnamed)) := by
      rw [keyed_concat]
      simp [Fields.keys]
    rw [hkeys, ih, namedAs_concat, List.countP_append, List.countP_singleton]
    cases hname : x.name with
    | none =>
      have hnumber : toString n = toString (rs.countP isUnnamed) ↔ n = rs.countP isUnnamed :=
        Nat.repr_inj
      simp only [isUnnamed, hname, Option.isNone_none, if_true, Option.getD_none, hnumber,
        reduceCtorEq, or_false, Nat.lt_succ_iff_lt_or_eq, or_right_comm]
    | some name =>
      simp only [isUnnamed, hname, Option.isNone_some, Bool.false_eq_true, if_false, Nat.add_zero,
        Option.getD_some, Option.some.injEq, or_assoc, eq_comm (a := name)]

end Recording

open Recording (isUnnamed keyed NamedAs)

namespace Results

variable {sink : Sink} {rs later : List Recording} {k : String} {w : Value}

theorem mem_keys_after : k ∈ Fields.keys (after sink rs).values ↔ k ∈ Fields.keys (keyed rs) := by
  rw [values_after, Fields.keys_ofEntries, List.mem_eraseDups]

/-- Of the numbers that come next, those are held that came as names. -/
theorem mem_keys_of_number {i : Nat} :
    toString (rs.countP isUnnamed + i) ∈ Fields.keys (after sink rs).values ↔
      NamedAs rs (rs.countP isUnnamed + i) := by
  rw [mem_keys_after, Recording.number_mem_keys_keyed]
  constructor
  · rintro (hbelow | hnamed)
    · omega
    · exact hnamed
  · exact .inr

theorem replaces_none_iff :
    (after sink rs).replaces none = true ↔ NamedAs rs (rs.countP isUnnamed) := by
  rw [replaces, keyFor_after, Option.getD_none, Fields.contains_iff_mem_keys]
  exact mem_keys_of_number (i := 0)

/-- Where something is replaced there is a warning. -/
theorem warnings_none_iff :
    (after sink rs).warnings none = [.resultReplaced] ↔ NamedAs rs (rs.countP isUnnamed) := by
  refine Iff.trans ?_ (replaces_none_iff : (after sink rs).replaces none = true ↔ _)
  rw [warnings]
  cases (after sink rs).replaces none <;> simp

theorem countP_unnamed (h : ∀ x ∈ later, x.name = none) :
    later.countP isUnnamed = later.length := by
  rw [List.countP_eq_length]
  intro x hx
  simp [isUnnamed, h x hx]

/-- What is held stays through results without a name, unless one of their numbers is its name. -/
theorem get?_after_unnamed (hlater : ∀ x ∈ later, x.name = none)
    (hget : get? k (after sink rs).values = some w)
    (hk : ∀ i < later.length, NamedAs rs (rs.countP isUnnamed + i) →
      k ≠ toString (rs.countP isUnnamed + i)) :
    get? k (after sink (rs ++ later)).values = some w := by
  induction later using List.reverseRecOn with
  | nil => rwa [List.append_nil]
  | append_singleton later x ih =>
    have hx : x.name = none := hlater x (by simp)
    have hearlier : ∀ y ∈ later, y.name = none := fun y hy => hlater y (by simp [hy])
    have hkept := ih hearlier fun i hi => hk i (by simp; omega)
    have hnumber : (rs ++ later).countP isUnnamed = rs.countP isUnnamed + later.length := by
      rw [List.countP_append, countP_unnamed hearlier]
    have hne : toString (rs.countP isUnnamed + later.length) ≠ k := by
      rintro rfl
      -- a key that is held and has a number yet to come is a name
      have hnamed := mem_keys_of_number.mp (Fields.mem_keys_of_get? hget)
      exact hk later.length (by simp) hnamed rfl
    rw [← List.append_assoc, after_concat, values_record, keyFor_after, hx, Option.getD_none,
      hnumber, Fields.get?_insert, if_neg hne]
    exact hkept

/-- **Results without a name.** One goes under the count of those without a name before it. There
is something under this number already if and only if an earlier result was given the number as
its name. If so, there is a warning, that one is replaced and nothing else changes. If not, the new
one goes to the end and all that was held stays as it was. However many more without a name follow,
a result that is held now can be lost only under a name that is the number of one of them. -/
theorem unnamed_replaces (sink : Sink) (rs : List Recording) (value : Value) :
    let held := after sink rs
    let number := rs.countP isUnnamed
    let next := after sink (rs ++ [⟨none, value⟩])
    held.record none value =
        (next, if sink.succeeds rs.length then .ok (toString number) else .error .io) ∧
      (toString number ∈ Fields.keys held.values ↔ NamedAs rs number) ∧
      (held.warnings none = [.resultReplaced] ↔ NamedAs rs number) ∧
      (NamedAs rs number → Fields.keys next.values = Fields.keys held.values ∧
        get? (toString number) next.values = some value ∧
        ∀ k, k ≠ toString number → get? k next.values = get? k held.values) ∧
      (¬ NamedAs rs number → next.values = held.values ++ [(toString number, value)]) ∧
      ∀ later : List Recording, (∀ x ∈ later, x.name = none) → ∀ k w,
        get? k held.values = some w →
        (∀ i < later.length, NamedAs rs (number + i) → k ≠ toString (number + i)) →
          get? k (after sink (rs ++ later)).values = some w := by
  intro held number next
  have hkey : toString number ∈ Fields.keys held.values ↔ NamedAs rs number :=
    mem_keys_of_number (i := 0)
  have hnext : next.values = Fields.insert (toString number) value held.values := by
    show (after sink (rs ++ [⟨none, value⟩])).values = _
    rw [after_concat, values_record, keyFor_after]
    rfl
  refine ⟨?_, hkey, warnings_none_iff, fun hnamed => ⟨?_, ?_, fun k hk => ?_⟩, fun hnamed => ?_, ?_⟩
  · exact Prod.ext (after_concat sink rs ⟨none, value⟩).symm
      (record_after_outcome sink rs ⟨none, value⟩)
  · rw [hnext, Fields.keys_insert, if_pos (hkey.mpr hnamed)]
  · rw [hnext, Fields.get?_insert, if_pos rfl]
  · rw [hnext, Fields.get?_insert, if_neg hk.symm]
  · rw [hnext, Fields.insert_of_not_mem fun hmem => hnamed (hkey.mp hmem)]
  · intro later hlater k w hget hk
    exact get?_after_unnamed hlater hget hk

/-- A result that is called `1` outlives the first one without a name and not the second. -/
theorem unnamed_replaces_named :
    let rs : List Recording := [⟨some "1", .str "kept"⟩, ⟨none, .bool true⟩]
    let later : List Recording := [⟨none, .null⟩]
    NamedAs rs (rs.countP isUnnamed) ∧ (after .memory rs).warnings none = [.resultReplaced] ∧
      Fields.keys (after .memory (rs ++ later)).values = ["1", "0"] ∧
      get? "1" (after .memory (rs ++ later)).values = some .null ∧
      get? "0" (after .memory (rs ++ later)).values = some (.bool true) := by
  intro rs later
  obtain ⟨-, -, hwarns, hreplaced, -, hkept⟩ := unnamed_replaces .memory rs .null
  have hnumber : toString (rs.countP isUnnamed) = "1" := by decide
  have hnamed : NamedAs rs (rs.countP isUnnamed) :=
    ⟨⟨some "1", .str "kept"⟩, by simp [rs], by decide⟩
  obtain ⟨hkeys, hget, -⟩ := hreplaced hnamed
  rw [hnumber] at hget
  refine ⟨hnamed, hwarns.mpr hnamed, hkeys, hget,
    hkept later (by simp [later]) "0" (.bool true) rfl fun i hi _ => ?_⟩
  obtain rfl : i = 0 := by simpa [later] using hi
  decide

end Results

end Runbook
