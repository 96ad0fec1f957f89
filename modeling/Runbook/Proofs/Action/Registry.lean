/-
Registries: made of lists of actions, and asked by key.

An action is added unless one of its keys is taken, and the first that is decides the error
(`add_eq_error_iff`). So a list makes a registry if its actions keep apart, and if they do not, the
first action that comes too near to one before it is what the error is about
(`build_eq_error_iff`). In a registry a key has one owner (`owner_unique`), and whoever asks for
the key finds it (`get?_eq_some_iff`).
-/
import Mathlib.Data.List.Induction
import Mathlib.Tactic.ByContra
import Runbook.Action.Registry

namespace Runbook

namespace Action

variable {a b : Action}

theorem name_mem_keys (a : Action) : a.name ∈ a.keys := by simp [keys]

/-- No key of the one is a key of the other. -/
def Apart (a b : Action) : Prop := ∀ key ∈ a.keys, key ∉ b.keys

instance (a b : Action) : Decidable (Apart a b) :=
  inferInstanceAs (Decidable (∀ key ∈ a.keys, key ∉ b.keys))

theorem Apart.symm (h : Apart a b) : Apart b a := fun key hb ha => h key ha hb

theorem Apart.ne (h : Apart a b) : a ≠ b := by
  rintro rfl
  exact h a.name a.name_mem_keys a.name_mem_keys

end Action

namespace Registry

open Runbook.Action (Apart)

variable {registry : Registry} {actions : List Action} {a b : Action} {key : String} {e : Error}

/-! ## One owner for each key -/

/-- Two places of a list with a common key are one, if its actions keep apart. -/
theorem place_unique (h : actions.Pairwise Apart) {i j : Nat} (hi : actions[i]? = some a)
    (hj : actions[j]? = some b) (hkey : key ∈ a.keys) (hkey' : key ∈ b.keys) : i = j := by
  obtain ⟨hi', rfl⟩ := List.getElem?_eq_some_iff.mp hi
  obtain ⟨hj', rfl⟩ := List.getElem?_eq_some_iff.mp hj
  rw [List.pairwise_iff_getElem] at h
  by_contra hne
  rcases Nat.lt_or_gt_of_ne hne with hlt | hlt
  · exact h i j hi' hj' hlt key hkey hkey'
  · exact h j i hj' hi' hlt key hkey' hkey

theorem owner_unique (ha : a ∈ registry.actions) (hb : b ∈ registry.actions) (hkey : key ∈ a.keys)
    (hkey' : key ∈ b.keys) : a = b := by
  obtain ⟨i, hi⟩ := List.mem_iff_getElem?.mp ha
  obtain ⟨j, hj⟩ := List.mem_iff_getElem?.mp hb
  obtain rfl := place_unique registry.separate hi hj hkey hkey'
  exact Option.some.inj (hi.symm.trans hj)

/-- A search that stops at owners of a key only finds the owner, if it stops there at all. -/
theorem find?_owner (key : String) {p : Action → Bool} (ha : a ∈ registry.actions)
    (hp : p a = true) (hkeys : ∀ b, p b = true → key ∈ b.keys) :
    registry.actions.find? p = some a := by
  cases hfind : registry.actions.find? p with
  | none => exact absurd hp (List.find?_eq_none.mp hfind a ha)
  | some b =>
    have hb : b ∈ registry.actions := List.mem_of_find?_eq_some hfind
    rw [owner_unique hb ha (hkeys b (List.find?_some hfind)) (hkeys a hp)]

theorem get?_eq_some_iff : registry.get? key = some a ↔ a ∈ registry.actions ∧ key ∈ a.keys := by
  constructor
  · intro h
    exact ⟨List.mem_of_find?_eq_some h, by simpa using List.find?_some h⟩
  · rintro ⟨ha, hkey⟩
    exact find?_owner key ha (by simpa using hkey) (by simp)

theorem get?_eq_none_iff : registry.get? key = none ↔ ∀ a ∈ registry.actions, key ∉ a.keys := by
  simp [get?, List.find?_eq_none]

/-! ## One more action -/

theorem actions_add {r : Registry} (h : registry.add a = .ok r) :
    r.actions = registry.actions ++ [a] := by
  unfold add at h
  split at h
  · cases h
  · cases h
    rfl

theorem clash?_eq_none_iff : registry.clash? a = none ↔ ∀ b ∈ registry.actions, Apart b a := by
  refine ⟨not_mem_keys_of_clash?_eq_none, fun h => List.findSome?_eq_none_iff.mpr ?_⟩
  intro key hkey
  rw [Option.map_eq_none_iff, get?_eq_none_iff]
  exact fun b hb hmem => h b hb key hmem hkey

theorem add_ok_iff : (∃ r, registry.add a = .ok r) ↔ ∀ b ∈ registry.actions, Apart b a := by
  rw [← clash?_eq_none_iff]
  unfold add
  split
  · next hclash => simp [hclash]
  · next hclash => simp [hclash]

/-- The first key of the action that is taken, and who has it. -/
theorem clash?_eq_some_iff : registry.clash? a = some (key, b) ↔
    (b ∈ registry.actions ∧ key ∈ b.keys) ∧ ∃ earlier later, a.keys = earlier ++ key :: later ∧
      ∀ k ∈ earlier, ∀ c ∈ registry.actions, k ∉ c.keys := by
  simp only [clash?, List.findSome?_eq_some_iff, Option.map_eq_some_iff, Prod.mk.injEq,
    Option.map_eq_none_iff, get?_eq_some_iff, get?_eq_none_iff]
  constructor
  · rintro ⟨earlier, k, later, hkeys, ⟨_, hb, rfl, rfl⟩, hfree⟩
    exact ⟨hb, earlier, later, hkeys, hfree⟩
  · rintro ⟨hb, earlier, later, hkeys, hfree⟩
    exact ⟨earlier, key, later, hkeys, ⟨b, hb, rfl, rfl⟩, hfree⟩

theorem add_eq_error_iff : registry.add a = .error e ↔
    ∃ key b, registry.clash? a = some (key, b) ∧ e = .duplicateAction key b.name a.name := by
  unfold add
  split
  · next key b hclash =>
    rw [hclash]
    constructor
    · intro h
      exact ⟨key, b, rfl, (Except.error.inj h).symm⟩
    · rintro ⟨_, _, heq, rfl⟩
      cases heq
      rfl
  · next hclash => simp [hclash]

/-! ## A list of actions -/

theorem actions_foldlM {r : Registry} (h : actions.foldlM add registry = .ok r) :
    r.actions = registry.actions ++ actions := by
  induction actions generalizing registry with
  | nil =>
    cases h
    simp
  | cons a actions ih =>
    rw [List.foldlM_cons] at h
    cases hadd : registry.add a with
    | error e =>
      rw [hadd] at h
      cases h
    | ok registry' =>
      rw [hadd] at h
      rw [ih h, actions_add hadd, List.append_assoc, List.singleton_append]

/-- The registry of a list holds the actions of the list. -/
theorem actions_build (h : build actions = .ok registry) : registry.actions = actions :=
  actions_foldlM h

theorem build_append (before after : List Action) :
    build (before ++ after) = build before >>= fun r => after.foldlM add r :=
  List.foldlM_append

/-- An action at the end of a list is added to what the rest of the list makes. -/
theorem build_concat (actions : List Action) (a : Action) :
    build (actions ++ [a]) = build actions >>= fun r => r.add a := by
  rw [build_append]
  simp

theorem build_ok_iff :
    (∃ registry, build actions = .ok registry) ↔ actions.Pairwise Apart := by
  induction actions using List.reverseRecOn with
  | nil => exact ⟨fun _ => .nil, fun _ => ⟨.empty, rfl⟩⟩
  | append_singleton actions a ih =>
    rw [build_concat, List.pairwise_append, ← ih]
    simp only [List.mem_singleton, forall_eq, List.pairwise_singleton, true_and]
    cases hbuild : build actions with
    | error e => simp [bind, Except.bind]
    | ok r =>
      have hactions : r.actions = actions := actions_build hbuild
      simp only [bind, Except.bind, add_ok_iff, hactions, Except.ok.injEq, exists_eq', true_and]

/-- A list that fails does so at one of its actions. -/
theorem foldlM_add_error (h : actions.foldlM add registry = .error e) :
    ∃ before a after r, actions = before ++ a :: after ∧
      before.foldlM add registry = .ok r ∧ r.add a = .error e := by
  induction actions generalizing registry with
  | nil => cases h
  | cons a actions ih =>
    rw [List.foldlM_cons] at h
    cases hadd : registry.add a with
    | error e' =>
      rw [hadd] at h
      cases h
      exact ⟨[], a, actions, registry, rfl, rfl, hadd⟩
    | ok registry' =>
      rw [hadd] at h
      obtain ⟨before, b, after, r, rfl, hbefore, hb⟩ := ih h
      refine ⟨a :: before, b, after, r, rfl, ?_, hb⟩
      rw [List.foldlM_cons, hadd]
      exact hbefore

/-- The first action of a list that has a key in common with one before it, its first such key, and
the one before it that has the key. -/
def FirstClash (actions : List Action) (key : String) (first second : Action) : Prop :=
  ∃ before after, actions = before ++ second :: after ∧ before.Pairwise Apart ∧
    (first ∈ before ∧ key ∈ first.keys) ∧
    ∃ earlier later, second.keys = earlier ++ key :: later ∧
      ∀ k ∈ earlier, ∀ b ∈ before, k ∉ b.keys

theorem build_eq_error_iff : build actions = .error e ↔
    ∃ key first second, FirstClash actions key first second ∧
      e = .duplicateAction key first.name second.name := by
  constructor
  · intro h
    obtain ⟨before, second, after, r, hsplit, hbefore, hadd⟩ := foldlM_add_error h
    have hactions : r.actions = before := actions_build hbefore
    obtain ⟨key, first, hclash, rfl⟩ := add_eq_error_iff.mp hadd
    rw [clash?_eq_some_iff, hactions] at hclash
    exact ⟨key, first, second, ⟨before, after, hsplit, build_ok_iff.mp ⟨r, hbefore⟩, hclash⟩, rfl⟩
  · rintro ⟨key, first, second, ⟨before, after, rfl, hbefore, hclash⟩, rfl⟩
    obtain ⟨r, hr⟩ := build_ok_iff.mpr hbefore
    have hadd : r.add second = .error (.duplicateAction key first.name second.name) := by
      refine add_eq_error_iff.mpr ⟨key, first, ?_, rfl⟩
      rw [clash?_eq_some_iff, actions_build hr]
      exact hclash
    rw [build_append, hr]
    show (second :: after).foldlM add r = _
    rw [List.foldlM_cons, hadd]
    rfl

/-- **A registry keeps its actions apart.** A list of actions makes a registry if and only if no
key of one action is a key of another. The registry then holds the actions in their order, and for
each key it finds the action at the one place of the list that has the key, or nothing if no action
has it. Else the error is about the first action that has a key in common with an earlier one, the
first such key of it, alias before name, and the earlier action with that key. -/
theorem build_separates (actions : List Action) :
    ((∃ registry, build actions = .ok registry) ↔ actions.Pairwise Apart) ∧
    (∀ registry, build actions = .ok registry → registry.actions = actions ∧ ∀ key,
      (∀ a, registry.get? key = some a ↔ ∃ i, actions[i]? = some a ∧ key ∈ a.keys ∧
        ∀ (j : Nat) b, actions[j]? = some b → key ∈ b.keys → j = i) ∧
      (registry.get? key = none ↔ ∀ a ∈ actions, key ∉ a.keys)) ∧
    ∀ e, build actions = .error e ↔ ∃ key first second, FirstClash actions key first second ∧
      e = .duplicateAction key first.name second.name := by
  refine ⟨build_ok_iff, fun registry h => ?_, fun e => build_eq_error_iff⟩
  have hapart : actions.Pairwise Apart := build_ok_iff.mp ⟨registry, h⟩
  obtain rfl := actions_build h
  refine ⟨rfl, fun key => ⟨fun a => ?_, get?_eq_none_iff⟩⟩
  rw [get?_eq_some_iff, List.mem_iff_getElem?]
  constructor
  · rintro ⟨⟨i, hi⟩, hkey⟩
    exact ⟨i, hi, hkey, fun j b hj hkey' => place_unique hapart hj hi hkey' hkey⟩
  · rintro ⟨i, hi, hkey, -⟩
    exact ⟨⟨i, hi⟩, hkey⟩

/-- The alias may be the name. -/
example : ∃ registry, build [⟨"Wave", some "Wave", "wave a hand", none, .custom⟩] = .ok registry :=
  ⟨_, rfl⟩

end Registry

end Runbook
