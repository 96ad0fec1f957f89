/-
Targets in full form.

What a target is expanded to has a prompt that is read as that prompt again (`ofValue?_toValue`):
texts of numbers are not empty. Therefore expanding it once more changes nothing
(`canonical?_toValue`), and neither does passing over all targets of an action a second time
(`canonicalTargets_of_canonical`). No warning is raised on the way, since a prompt is never given
twice (`canonical?_eq`), and a pass brings each target into full form by itself
(`get?_canonicalTargets`).
-/
import Runbook.Proofs.Step.Alike

namespace Runbook

open Fields (get?)

/-! ## Prompts -/

theorem Binary64.Layout.write_ne_nil (l : Layout) (ds : List Char) (lead : Int) :
    l.write ds lead ≠ [] := by
  unfold write
  split
  · split
    · simp
    · simp
  · simp

theorem Number.text_ne_empty (n : Number) : n.text ≠ "" := by
  cases n with
  | nat n => exact Nat.repr_ne_empty
  | negSucc n => simp [text]
  | real x =>
    simp only [text, Binary64.text, ne_eq, String.ofList_eq_empty_iff]
    split
    · simp
    · split
      · simp
      · exact Binary64.Layout.write_ne_nil _ _ _

/-- A prompt that is read off a value is read off its own value. -/
theorem Prompt.ofValue?_toValue {v : Value} {p : Prompt} (h : Prompt.ofValue? v = some p) :
    Prompt.ofValue? p.toValue = some p := by
  cases v with
  | str s =>
    by_cases hs : s.isEmpty
    · simp [ofValue?, hs] at h
    · simp only [ofValue?, hs, Bool.false_eq_true, if_false, Option.some.injEq] at h
      subst h
      simp only [toValue, ofValue?, hs, Bool.false_eq_true, if_false]
  | num n =>
    cases h
    simp [toValue, ofValue?, n.text_ne_empty]
  | obj fs =>
    cases h
    rfl
  | null => cases h
  | bool b => cases h
  | arr vs => cases h

/-! ## Full forms -/

namespace Locator

theorem build_none (options : Object) : Locator.build none options =
    pure (((promptAt? "prompt" options).or (promptAt? "locate" options)).map
      (described · options)) := by
  simp only [Locator.build, Option.none_or]
  cases (promptAt? "prompt" options).or (promptAt? "locate" options) <;> rfl

/-- The locator is read off its own entries. -/
theorem build_toFields {l : Locator} (h : Prompt.ofValue? l.prompt.toValue = some l.prompt) :
    Locator.build none l.toFields = pure (some l) := by
  have hprompt : promptAt? "prompt" l.toFields = some l.prompt := h
  rw [build_none, hprompt]
  obtain ⟨prompt, deepThink, cacheable, xpath⟩ := l
  cases xpath with
  | none => rfl
  | some hint => cases hint <;> rfl

/-- The locator that a target stands for, if it stands for one. An object that does not have a
`prompt` entry is the prompt itself. -/
def ofTarget? : Value → Option Locator
  | .obj fs =>
    if Fields.contains "prompt" fs then
      ((promptAt? "prompt" fs).or (promptAt? "locate" fs)).map (described · fs)
    else some { prompt := .structured fs }
  | v => (Prompt.ofValue? v).map fun p => { prompt := p }

theorem canonical?_eq (v : Value) : canonical? v = pure ((ofTarget? v).map toValue) := by
  cases v with
  | obj fs =>
    unfold canonical? ofTarget?
    dsimp only
    split
    · rw [build_none]
      rfl
    · rfl
  | _ =>
    unfold canonical? ofTarget?
    dsimp only
    split
    · next p hp =>
      rw [hp]
      rfl
    · next hp =>
      rw [hp]
      rfl

/-- The locator that a target stands for has a prompt that is read as such. -/
theorem readable_ofTarget? {v : Value} {l : Locator} (h : ofTarget? v = some l) :
    Prompt.ofValue? l.prompt.toValue = some l.prompt := by
  unfold ofTarget? at h
  split at h
  · split at h
    · obtain ⟨p, hp, rfl⟩ := Option.map_eq_some_iff.mp h
      rcases Option.or_eq_some_iff.mp hp with hp | ⟨-, hp⟩
      · obtain ⟨w, -, hw⟩ := Option.bind_eq_some_iff.mp hp
        exact Prompt.ofValue?_toValue hw
      · obtain ⟨w, -, hw⟩ := Option.bind_eq_some_iff.mp hp
        exact Prompt.ofValue?_toValue hw
    · cases h
      rfl
  · obtain ⟨p, hp, rfl⟩ := Option.map_eq_some_iff.mp h
    exact Prompt.ofValue?_toValue hp

theorem canonical?_toValue {l : Locator}
    (h : Prompt.ofValue? l.prompt.toValue = some l.prompt) :
    canonical? l.toValue = pure (some l.toValue) := by
  have hcontains : Fields.contains "prompt" l.toFields = true := rfl
  simp only [canonical?, toValue, hcontains, if_true, build_toFields h]
  rfl

/-- A target in full form, as the action receives it. Not every target has one. -/
def inFull (v : Value) : Value := ((ofTarget? v).map toValue).getD v

end Locator

/-- A target that is in full form or has none. -/
def Value.Canonical (v : Value) : Prop :=
  Locator.canonical? v = pure (some v) ∨ Locator.canonical? v = pure none

namespace Locator

theorem canonical_inFull (v : Value) : (inFull v).Canonical := by
  unfold inFull
  cases hl : ofTarget? v with
  | none =>
    refine .inr ?_
    show canonical? v = pure none
    rw [canonical?_eq, hl]
    rfl
  | some l => exact .inl (canonical?_toValue (readable_ofTarget? hl))

/-- A target that is in full form or has none is left alone. -/
theorem inFull_of_canonical {v : Value} (h : v.Canonical) : inFull v = v := by
  rw [Value.Canonical, canonical?_eq] at h
  unfold inFull
  rcases h with h | h
  · rw [show (ofTarget? v).map toValue = some v from congrArg Logged.value h, Option.getD_some]
  · rw [show (ofTarget? v).map toValue = none from congrArg Logged.value h, Option.getD_none]

end Locator

/-! ## The targets of an action -/

namespace Step

variable {names : List String} {param : Object}

theorem canonicalTargets_cons {name : String} {rest : List String} {target full : Value}
    (hget : get? name param = some target) (hfull : Locator.canonical? target = pure (some full)) :
    canonicalTargets (name :: rest) param =
      canonicalTargets rest (Fields.insert name full param) := by
  rw [canonicalTargets, hget]
  simp only [hfull]
  rfl

/-- One target is brought into full form, then the others. -/
theorem canonicalTargets_step (name : String) (rest : List String) (param : Object) :
    ∃ q, canonicalTargets (name :: rest) param = canonicalTargets rest q ∧
      ∀ key, get? key q =
        if key = name then (get? key param).map Locator.inFull else get? key param := by
  cases hget : get? name param with
  | none =>
    refine ⟨param, by rw [canonicalTargets, hget], fun key => ?_⟩
    by_cases hkey : key = name
    · rw [if_pos hkey, hkey, hget]
      rfl
    · rw [if_neg hkey]
  | some target =>
    have hcanonical := Locator.canonical?_eq target
    cases hl : Locator.ofTarget? target with
    | none =>
      rw [hl] at hcanonical
      refine ⟨param, ?_, fun key => ?_⟩
      · rw [canonicalTargets, hget]
        simp only [hcanonical]
        rfl
      · by_cases hkey : key = name
        · rw [if_pos hkey, hkey, hget, Option.map_some, Locator.inFull, hl]
          rfl
        · rw [if_neg hkey]
    | some l =>
      rw [hl] at hcanonical
      refine ⟨_, canonicalTargets_cons hget hcanonical, fun key => ?_⟩
      by_cases hkey : key = name
      · rw [Fields.get?_insert, if_pos hkey.symm, if_pos hkey, hkey, hget, Option.map_some,
          Locator.inFull, hl]
        rfl
      · rw [Fields.get?_insert, if_neg (Ne.symm hkey), if_neg hkey]

/-- Afterwards the targets are in full form, and nothing else has changed. -/
theorem get?_canonicalTargets (names : List String) (param : Object) :
    ∃ param', canonicalTargets names param = pure param' ∧ ∀ key, get? key param' =
      if key ∈ names then (get? key param).map Locator.inFull else get? key param := by
  induction names generalizing param with
  | nil => exact ⟨param, rfl, fun key => by simp⟩
  | cons name rest ih =>
    obtain ⟨q, hq, hname⟩ := canonicalTargets_step name rest param
    obtain ⟨param', hparam, hrest⟩ := ih q
    refine ⟨param', hq.trans hparam, fun key => ?_⟩
    rw [hrest key, hname key]
    by_cases hkey : key = name
    · rw [if_pos hkey, if_pos (List.mem_cons.mpr (.inl hkey))]
      split
      · -- a name that comes again finds its target in full form
        rw [Option.map_map]
        refine Option.map_congr fun v _ => ?_
        exact Locator.inFull_of_canonical (Locator.canonical_inFull v)
      · rfl
    · simp only [List.mem_cons, hkey, false_or, if_false]

theorem canonicalTargets_of_canonical
    (h : ∀ name ∈ names, ∀ x, get? name param = some x → x.Canonical) :
    canonicalTargets names param = pure param := by
  induction names with
  | nil => rfl
  | cons name rest ih =>
    simp only [List.mem_cons, forall_eq_or_imp] at h
    have hrest := ih h.2
    cases hget : get? name param with
    | none => rw [canonicalTargets, hget, hrest]
    | some target =>
      rcases h.1 target hget with hfull | hnone
      · rw [canonicalTargets_cons hget hfull, Fields.insert_self hget, hrest]
      · rw [canonicalTargets, hget]
        simp only [hnone]
        exact hrest

end Step

end Runbook
