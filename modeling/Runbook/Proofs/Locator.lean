/-
Full forms of targets, as values.

Bringing a target into full form is a projection (`canonical_projects`). What comes out is what is
written of a locator whose prompt says something, so it is read as that locator, and to bring it
into full form again changes nothing. Nor does it change what an object is read as: the hints of a
target count for the same in both ways of reading it (`canonical?_of_decode`).
-/
import Runbook.Proofs.Rereading
import Runbook.Proofs.Step.Canonical

namespace Runbook

open Decode (Record)
open Decode.Record (make_seq_ok make_map_ok)
open Fields (get?)

/-- A prompt that says something: a text that is not empty, or an object. -/
def Prompt.Says : Prompt → Prop
  | .text t => t ≠ ""
  | .structured _ => True

theorem Prompt.says_iff (p : Prompt) : p.Says ↔ Prompt.ofValue? p.toValue = some p := by
  cases p with
  | text t => by_cases ht : t = "" <;> simp [Says, toValue, ofValue?, ht]
  | structured fs => exact ⟨fun _ => rfl, fun _ => trivial⟩

namespace Locator

variable {fs : Object} {name : String} {l : Locator}

/-! ## Members and options -/

theorem promptAt?_of_made {p : Prompt}
    (h : (Record.required name Prompt.decode).make (get? · fs) = .ok p) (hp : p.Says) :
    promptAt? name fs = some p := by
  simp only [Record.required] at h
  split at h
  · next v hv =>
    have hvalue : v = p.toValue := by cases v <;> cases h <;> rfl
    rw [promptAt?, hv, Option.bind_some, hvalue]
    exact p.says_iff.mp hp
  · cases h

theorem flagAt_of_made {default b : Bool}
    (h : (Record.withDefault name Decode.flag default).make (get? · fs) = .ok b) :
    flagAt name default fs = b := by
  simp only [Record.withDefault] at h
  split at h
  · next v hv =>
    rw [flagAt, hv]
    cases v <;> cases h
    rfl
  · next hv =>
    cases h
    rw [flagAt, hv]
    rfl

theorem hint_of_made {o : Option PathHint}
    (h : (Record.optional name PathHint.decode).make (get? · fs) = .ok o) :
    (get? name fs).bind PathHint.ofValue? = o := by
  simp only [Record.optional, Record.withDefault] at h
  split at h
  · next v hv =>
    rw [hv]
    cases v <;> cases h <;> rfl
  · next hv =>
    cases h
    rw [hv]
    rfl

/-- An object that is read as a locator has that locator's full form. -/
theorem canonical?_of_decode (h : decode (.obj fs) = .ok l) (hl : l.prompt.Says) :
    canonical? (.obj fs) = pure (some l.toValue) := by
  obtain ⟨-, -, hmade⟩ := bind_ok h
  simp only [record, make_seq_ok, make_map_ok] at hmade
  obtain ⟨_, ⟨_, ⟨_, ⟨prompt, hprompt, rfl⟩, deepThink, hdeep, rfl⟩, cacheable, hcache, rfl⟩,
    xpath, hxpath, rfl⟩ := hmade
  have hsaid : promptAt? "prompt" fs = some prompt := promptAt?_of_made hprompt hl
  have hdescribed : described prompt fs = ⟨prompt, deepThink, cacheable, xpath⟩ := by
    rw [described, flagAt_of_made hdeep, flagAt_of_made hcache, hint_of_made hxpath]
  have hcontains : Fields.contains "prompt" fs = true := by
    obtain ⟨v, hv, -⟩ := Option.bind_eq_some_iff.mp hsaid
    rw [Fields.contains_iff_get?, hv]
    rfl
  rw [canonical?_eq, ofTarget?, if_pos hcontains, hsaid, Option.some_or, Option.map_some,
    hdescribed]
  rfl

/-! ## The projection -/

/-- **Full forms are reached in one step.** No target is warned about. If it has a full form, that
is what is written of a locator whose prompt says something, it is read as this locator, and it is
its own full form. An object that is read as such a locator, however it is spelled, has the full
form of this locator. -/
theorem canonical_projects :
    (∀ v, (canonical? v).warnings = []) ∧
    (∀ v w, (canonical? v).value = some w →
      canonical? w = pure (some w) ∧
        ∃ l, decode w = .ok l ∧ l.toValue = w ∧ l.prompt.Says) ∧
    ∀ fs l, decode (.obj fs) = .ok l → l.prompt.Says →
      canonical? (.obj fs) = pure (some l.toValue) := by
  refine ⟨fun v => ?_, fun v w h => ?_, fun fs l => canonical?_of_decode⟩
  · rw [canonical?_eq]
    rfl
  · rw [canonical?_eq] at h
    obtain ⟨l, hl, rfl⟩ := Option.map_eq_some_iff.mp h
    have hreadable := readable_ofTarget? hl
    exact ⟨canonical?_toValue hreadable, l, readsBack l, rfl, l.prompt.says_iff.mpr hreadable⟩

/-- A target under the older key with a hint that is none, and a target with hints in another order
and one that is `null`. -/
theorem canonical_projects_older :
    let v : Value := .obj [("prompt", .str ""), ("deepThink", .str "yes"), ("xpath", .bool true),
      ("locate", .obj [("images", .arr [.str "logo.png"])])]
    let w : Value := .obj [("prompt", .obj [("images", .arr [.str "logo.png"])]),
      ("deepThink", .bool false), ("cacheable", .bool true), ("xpath", .bool true)]
    let fs : Object := [("xpath", .null), ("cacheable", .bool false), ("prompt", .str "logo")]
    let l : Locator := { prompt := .text "logo", cacheable := false }
    (canonical? v).value = some w ∧ canonical? w = pure (some w) ∧
      (∃ l, decode w = .ok l ∧ l.toValue = w ∧ l.prompt.Says) ∧
      decode (.obj fs) = .ok l ∧ canonical? (.obj fs) = pure (some l.toValue) := by
  intro v w fs l
  have hvalue : (canonical? v).value = some w := rfl
  have hdecode : decode (.obj fs) = .ok l := rfl
  obtain ⟨-, hprojects, hreads⟩ := canonical_projects
  obtain ⟨hagain, hlocator⟩ := hprojects v w hvalue
  have hsays : l.prompt.Says := show "logo" ≠ "" by decide
  exact ⟨hvalue, hagain, hlocator, hdecode, hreads fs l hdecode hsays⟩

end Locator

end Runbook
