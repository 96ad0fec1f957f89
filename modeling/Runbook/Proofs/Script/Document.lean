/-
A loaded script and the document it comes from.

Loading quotes device ids, expands placeholders and reads what comes of it as YAML; the target of
the script is then a section of the document. What is said here is how to get back from the script
to that document (`load_ok`) and from its target to the section (`section?_of_target`).
-/
import Runbook.Proofs.Decode
import Runbook.Script.Load

namespace Runbook.Script

variable {env : Environment} {file : Option String} {anyTarget : Bool} {text : String}
  {doc : Object} {s : Script}

/-- The section that describes a target of a kind. -/
def sectionOf? (doc : Object) : TargetKind → Option Value
  | .web => webSection? doc
  | .android => section? doc "android"
  | .ios => section? doc "ios"
  | .generic => none

theorem mem_platforms {kind : TargetKind} {v : Value} :
    (kind, v) ∈ platforms doc ↔ sectionOf? doc kind = some v := by
  simp only [platforms, List.mem_filterMap, List.mem_cons, List.not_mem_nil, or_false]
  constructor
  · rintro ⟨⟨kind', section'⟩, hmem, hmap⟩
    obtain ⟨v', rfl, heq⟩ := Option.map_eq_some_iff.mp hmap
    cases heq
    rcases hmem with heq | heq | heq <;> obtain ⟨rfl, hsection⟩ := Prod.mk.inj heq <;>
      exact hsection.symm
  · intro h
    refine ⟨(kind, some v), ?_, rfl⟩
    cases kind with
    | web => exact .inl (by rw [← h]; rfl)
    | android => exact .inr (.inl (by rw [← h]; rfl))
    | ios => exact .inr (.inr (by rw [← h]; rfl))
    | generic => cases h

/-- A target other than one under `config` has the entries of the section of its kind. -/
theorem section?_of_target {t : Target} (h : target? doc (platforms doc) = some t)
    (hkind : t.kind ≠ .generic) : sectionOf? doc t.kind = some (.obj t.env) := by
  unfold target? at h
  split at h
  · next t' hfound =>
    cases h
    obtain ⟨⟨kind, v⟩, hmem, hv⟩ := List.exists_of_findSome?_eq_some hfound
    obtain ⟨fs, hfs, rfl⟩ := Option.map_eq_some_iff.mp hv
    rw [mem_platforms.mp hmem]
    cases v <;> cases hfs
    rfl
  · split at h
    · cases h
      exact absurd rfl hkind
    · cases h

/-- A section with entries is what the document holds under its key, unless both are empty. -/
theorem get?_of_section? {key : String} {fs : Object} (h : section? doc key = some (.obj fs)) :
    Fields.get? key doc = some (.obj fs) ∨ Fields.get? key doc = some .null ∧ fs = [] := by
  obtain ⟨v, hv, heq⟩ := Option.map_eq_some_iff.mp h
  split at heq
  · cases heq
    exact .inr ⟨hv, rfl⟩
  · subst heq
    exact .inl hv

theorem ofValue_ok {v : Value} (h : ofValue file anyTarget v = .ok s) :
    ∃ doc, v = .obj doc ∧ s.target = target? doc (platforms doc) ∧
      taskList file doc = .ok s.tasks := by
  cases v with
  | obj doc =>
    refine ⟨doc, rfl, ?_⟩
    have hread : (taskList file doc >>= fun ts => .ok ⟨target? doc (platforms doc), ts⟩) =
        .ok s := by
      unfold ofValue at h
      dsimp only at h
      split at h
      · obtain ⟨u, -, h⟩ := bind_ok h
        exact h
      · exact h
    obtain ⟨ts, hts, heq⟩ := bind_ok hread
    cases heq
    exact ⟨rfl, hts⟩
  | _ => cases h

theorem readText_of_read? {expanded : String} {v : Value}
    (hexpanded : Placeholder.expand env text = .ok expanded)
    (hread : Yaml.Document.read? expanded = some v) : readText env text = .ok v := by
  unfold readText
  simp only [hexpanded, bind, Except.bind, hread]

/-- What a script is loaded from: the text with its device ids quoted and its placeholders
expanded, and the value of that. -/
theorem load_ok (h : (load env file anyTarget text).run.value = .ok s) :
    ∃ expanded v, Placeholder.expand env (DeviceId.quote text).value = .ok expanded ∧
      Yaml.Document.read? expanded = some v ∧ ofValue file anyTarget v = .ok s := by
  have hload : (readText env (DeviceId.quote text).value >>= ofValue file anyTarget) = .ok s := h
  obtain ⟨v, hread, hofValue⟩ := bind_ok hload
  obtain ⟨expanded, hexpanded, hread⟩ := bind_ok hread
  refine ⟨expanded, v, hexpanded, ?_, hofValue⟩
  split at hread
  · next w hw =>
    cases hread
    exact hw
  · cases hread

end Runbook.Script
