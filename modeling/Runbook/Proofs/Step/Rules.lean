/-
Which form a step has.

Every form but the last is recognised by keys of its own (`applies_eq_hasAny`), so an item has it
whatever else it holds and in whatever order. The rule of an item is the one that applies while
none above it does (`ruleOf?_eq_some`).
-/
import Runbook.Proofs.Fields
import Runbook.Step

namespace Runbook

open Item

theorem Extraction.isSome_ofKey? (key : String) :
    (Extraction.ofKey? key).isSome = true ↔ key ∈ Extraction.all.map Extraction.key := by
  simp [Extraction.ofKey?]

namespace Item

theorem hasAny_iff {keys : List String} {item : Item} :
    hasAny keys item = true ↔ ∃ key ∈ keys, (Fields.get? key item).isSome := by
  simp only [hasAny, List.any_eq_true, Fields.contains_iff_get?]

theorem hasAny_congr {keys : List String} {item item' : Item}
    (h : ∀ key ∈ keys, Fields.get? key item = Fields.get? key item') :
    hasAny keys item = hasAny keys item' := by
  rw [Bool.eq_iff_iff, hasAny_iff, hasAny_iff]
  constructor
  · exact fun ⟨key, hmem, hget⟩ => ⟨key, hmem, h key hmem ▸ hget⟩
  · exact fun ⟨key, hmem, hget⟩ => ⟨key, hmem, h key hmem ▸ hget⟩

theorem isSome_extraction? (item : Item) :
    (extraction? item).isSome = hasAny (Extraction.all.map Extraction.key) item := by
  rw [Bool.eq_iff_iff, hasAny_iff]
  simp only [extraction?, List.findSome?_isSome_iff, Extraction.isSome_ofKey?]
  constructor
  · rintro ⟨key, hitem, hkey⟩
    refine ⟨key, hkey, ?_⟩
    cases hget : Fields.get? key item with
    | none => exact absurd hitem (Fields.get?_eq_none_iff.mp hget)
    | some v => rfl
  · rintro ⟨key, hkey, hget⟩
    obtain ⟨v, hv⟩ := Option.isSome_iff_exists.mp hget
    exact ⟨key, Fields.mem_keys_of_get? hv, hkey⟩

end Item

namespace Rule

variable {registry : Registry} {item : Item} {rule : Rule}

/-- The keys by any of which an item has the form. The last form goes by the keys of the
registry. -/
def keys : Rule → List String
  | .act => actKeys
  | .assertion => ["aiAssert"]
  | .extract => Extraction.all.map Extraction.key
  | .waitFor => ["aiWaitFor"]
  | .sleep => ["sleep"]
  | .javascript => ["javascript"]
  | .report => reportKeys
  | .input => ["aiInput"]
  | .keyboardPress => ["aiKeyboardPress"]
  | .scroll => ["aiScroll"]
  | .action => []

/-- The rules that are tried first. -/
def above (rule : Rule) : List Rule := Rule.all.takeWhile fun r => decide (r ≠ rule)

/-- No rule that is tried first applies to an item. -/
def Spares (registry : Registry) (item : Item) (rule : Rule) : Prop :=
  ∀ r ∈ rule.above, r.applies registry item = false

instance : Decidable (Spares registry item rule) :=
  inferInstanceAs (Decidable (∀ r ∈ rule.above, r.applies registry item = false))

/-- Keys that give an item the form of a rule, and neither that of a rule that is tried before
nor a name for the result. -/
def HasForm (rule : Rule) (names : List String) : Prop :=
  (∃ key ∈ rule.keys, key ∈ names) ∧ (∀ r ∈ rule.above, ∀ key ∈ r.keys, key ∉ names) ∧
    resultKey ∉ names

instance (names : List String) : Decidable (HasForm rule names) :=
  inferInstanceAs (Decidable (_ ∧ _ ∧ _))

theorem applies_eq_hasAny (h : rule ≠ .action) (registry : Registry) (item : Item) :
    rule.applies registry item = hasAny rule.keys item := by
  cases rule with
  | action => exact absurd rfl h
  | extract => exact isSome_extraction? item
  | act => rfl
  | report => rfl
  | _ => simp [applies, keys, hasAny]

theorem action_not_mem_above (rule : Rule) : .action ∉ rule.above := by cases rule <;> decide

theorem all_eq (rule : Rule) : all = rule.above ++ rule :: all.drop (rule.above.length + 1) := by
  cases rule <;> rfl

end Rule

namespace Step

variable {registry : Registry} {item : Item} {rule : Rule}

theorem ruleOf?_eq_some (happlies : rule.applies registry item = true)
    (habove : rule.Spares registry item) : ruleOf? registry item = some rule := by
  unfold ruleOf?
  rw [List.find?_eq_some_iff_append]
  exact ⟨happlies, rule.above, _, rule.all_eq, fun r hr => by rw [habove r hr]; rfl⟩

/-- No rule that is tried before the rule of an item applies to it. -/
theorem spares_of_ruleOf? (h : ruleOf? registry item = some rule) : rule.Spares registry item := by
  obtain ⟨happlies, before, after, hall, hbefore⟩ := List.find?_eq_some_iff_append.mp h
  have hne : ∀ r ∈ before, r ≠ rule := by
    rintro r hr rfl
    have hnot := hbefore r hr
    rw [happlies] at hnot
    cases hnot
  have habove : rule.above = before := by
    rw [Rule.above, hall,
      List.takeWhile_append_of_pos fun r hr => decide_eq_true (hne r hr)]
    simp
  intro r hr
  simpa using hbefore r (habove ▸ hr)

theorem resolve_of_ruleOf? (h : ruleOf? registry item = some rule) :
    resolve registry item = (do
      let command ← build registry item rule
      pure ⟨rule, resultName? item, command⟩) := by
  simp only [resolve, h]

/-- A step has the warnings of its command, and fails only as its command does. -/
theorem resolve_run (h : ruleOf? registry item = some rule) : (resolve registry item).run =
    ⟨(build registry item rule).run.warnings,
      (build registry item rule).run.value.map fun command =>
        ⟨rule, resultName? item, command⟩⟩ := by
  rw [resolve_of_ruleOf? h]
  obtain ⟨warnings, value⟩ := build registry item rule
  cases value with
  | error e =>
    show (⟨warnings ++ [], _⟩ : Logged (Except Error Step)) = ⟨warnings, _⟩
    rw [List.append_nil]
    rfl
  | ok command =>
    show (⟨warnings ++ [], _⟩ : Logged (Except Error Step)) = ⟨warnings, _⟩
    rw [List.append_nil]
    rfl

end Step

end Runbook
