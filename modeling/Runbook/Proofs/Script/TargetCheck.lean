/-
What checking the target of a script comes to.

With the check a document has to have exactly one section of a platform, and that has to be an
object (`checkPlatforms_ok_iff`, `platforms_eq_singleton_iff`). The check decides nothing else: the
script is what it is without (`ofValue_checked_iff`), and so is what is reported on the way. Where
the text is from goes into messages only.
-/
import Mathlib.Data.List.Nodup
import Runbook.Proofs.Script.Document

namespace Runbook.Script

variable {env : Environment} {file file' : Option String} {anyTarget : Bool} {text : String}
  {doc fs : Object} {s : Script} {kind : TargetKind} {v : Value}

/-! ## Sections -/

/-- What a document has under the key of a section. A `null` is a section without entries. -/
def HasSection (doc : Object) (key : String) (v : Value) : Prop :=
  (Fields.get? key doc = some v ∧ v.isNull = false) ∨
    (Fields.get? key doc = some .null ∧ v = .obj [])

/-- The section of a platform. A web target is under `web`, or under `target` if there is nothing
or `null` under `web`. -/
def Describes (doc : Object) : TargetKind → Value → Prop
  | .web, v => (Fields.get? "web" doc = some v ∧ v.isNull = false) ∨
      ((∀ w, Fields.get? "web" doc = some w → w.isNull = true) ∧ HasSection doc "target" v)
  | .android, v => HasSection doc "android" v
  | .ios, v => HasSection doc "ios" v
  | .generic, _ => False

/-- One platform has a section, and that is an object with these entries. -/
def DescribesOnly (doc : Object) (kind : TargetKind) (fs : Object) : Prop :=
  Describes doc kind (.obj fs) ∧ ∀ kind' v, Describes doc kind' v → kind' = kind

theorem isNull_of_ne_null (h : v ≠ .null) : v.isNull = false := by
  cases v with
  | null => exact absurd rfl h
  | _ => rfl

theorem section?_eq_some_iff {key : String} : section? doc key = some v ↔ HasSection doc key v := by
  constructor
  · intro h
    obtain ⟨w, hw, heq⟩ := Option.map_eq_some_iff.mp h
    split at heq
    · exact .inr ⟨hw, heq.symm⟩
    · next hne =>
      subst heq
      exact .inl ⟨hw, isNull_of_ne_null hne⟩
  · rintro (⟨hget, hv⟩ | ⟨hget, rfl⟩)
    · rw [section?, hget]
      cases v with
      | null => cases hv
      | _ => rfl
    · rw [section?, hget]
      rfl

theorem webSection?_eq_some_iff : webSection? doc = some v ↔ Describes doc .web v := by
  unfold webSection? Describes
  split
  · next hget => simp [hget, section?_eq_some_iff]
  · next hget =>
    rw [hget, section?_eq_some_iff]
    constructor
    · exact fun h => .inr ⟨fun w hw => by cases hw; rfl, h⟩
    · rintro (⟨heq, hv⟩ | ⟨-, h⟩)
      · cases heq
        cases hv
      · exact h
  · next w hne hget =>
    have hw : w.isNull = false := isNull_of_ne_null hne
    constructor
    · intro h
      cases h
      exact .inl ⟨hget, hw⟩
    · rintro (⟨hget', -⟩ | ⟨hnull, -⟩)
      · exact hget.symm.trans hget'
      · cases hw.symm.trans (hnull w hget)

theorem sectionOf?_eq_some_iff : sectionOf? doc kind = some v ↔ Describes doc kind v := by
  cases kind with
  | web => exact webSection?_eq_some_iff
  | android => exact section?_eq_some_iff
  | ios => exact section?_eq_some_iff
  | generic => exact ⟨nofun, nofun⟩

/-! ## The check -/

theorem checkPlatforms_ok_iff {present : List (TargetKind × Value)} :
    checkPlatforms file present = .ok () ↔ ∃ kind fs, present = [(kind, .obj fs)] := by
  constructor
  · intro h
    unfold checkPlatforms at h
    split at h
    · cases h
    · exact ⟨_, _, rfl⟩
    · cases h
    · cases h
  · rintro ⟨kind, fs, rfl⟩
    rfl

/-- No platform is listed twice. -/
theorem nodup_platforms (doc : Object) : ((platforms doc).map Prod.fst).Nodup := by
  unfold platforms
  cases webSection? doc <;> cases section? doc "android" <;> cases section? doc "ios" <;> simp

theorem platforms_eq_singleton_iff :
    platforms doc = [(kind, .obj fs)] ↔ DescribesOnly doc kind fs := by
  constructor
  · intro h
    refine ⟨?_, fun kind' v hv => ?_⟩
    · rw [← sectionOf?_eq_some_iff, ← mem_platforms, h]
      exact List.mem_singleton_self _
    · rw [← sectionOf?_eq_some_iff, ← mem_platforms, h, List.mem_singleton] at hv
      exact congrArg Prod.fst hv
  · rintro ⟨hsection, honly⟩
    have hmem : (kind, .obj fs) ∈ platforms doc := mem_platforms.mpr (sectionOf?_eq_some_iff.mpr hsection)
    have hkinds : ∀ k ∈ (platforms doc).map Prod.fst, k = kind := by
      intro k hk
      obtain ⟨⟨k, v⟩, hv, rfl⟩ := List.mem_map.mp hk
      exact honly k v (sectionOf?_eq_some_iff.mp (mem_platforms.mp hv))
    have hlength : (platforms doc).length ≤ 1 := by
      have hall := List.nodup_iff_count_le_one.mp (nodup_platforms doc) kind
      rwa [List.count_eq_length.mpr fun k hk => (hkinds k hk).symm, List.length_map] at hall
    match hplatforms : platforms doc with
    | [] => simp [hplatforms] at hmem
    | [p] =>
      rw [hplatforms, List.mem_singleton] at hmem
      rw [hmem]
    | p :: q :: more => simp [hplatforms] at hlength

/-! ## Loading with and without it -/

/-- Where a text is from does not decide whether its tasks are read. -/
theorem taskList_ok_congr {ts : List Task} (h : taskList file doc = .ok ts) :
    taskList file' doc = .ok ts := by
  unfold taskList at h ⊢
  split at h
  · cases h
  · cases h
  · exact h
  · cases h

/-- Without the check a document needs its tasks only. -/
theorem ofValue_unchecked_iff : ofValue file true (.obj doc) = .ok s ↔
    taskList file doc = .ok s.tasks ∧ s.target = target? doc (platforms doc) := by
  constructor
  · intro h
    obtain ⟨doc', heq, htarget, htasks⟩ := ofValue_ok h
    cases heq
    exact ⟨htasks, htarget⟩
  · rintro ⟨htasks, htarget⟩
    obtain ⟨target, tasks⟩ := s
    cases htarget
    show (taskList file doc >>= _) = _
    rw [htasks]
    rfl

/-- The check comes before the script is read and leaves no trace in it. -/
theorem ofValue_checked_iff : ofValue file false (.obj doc) = .ok s ↔
    (∃ kind fs, DescribesOnly doc kind fs) ∧ ofValue file' true (.obj doc) = .ok s := by
  have hcheck : checkPlatforms file (platforms doc) = .ok () ↔
      ∃ kind fs, DescribesOnly doc kind fs := by
    simp only [checkPlatforms_ok_iff, platforms_eq_singleton_iff]
  rw [← hcheck, ofValue_unchecked_iff]
  constructor
  · intro h
    obtain ⟨doc', heq, htarget, htasks⟩ := ofValue_ok h
    cases heq
    obtain ⟨u, hu, -⟩ := bind_ok h
    exact ⟨hu, taskList_ok_congr htasks, htarget⟩
  · rintro ⟨hok, htasks, htarget⟩
    have hread : ofValue file true (.obj doc) = .ok s :=
      ofValue_unchecked_iff.mpr ⟨taskList_ok_congr htasks, htarget⟩
    show (checkPlatforms file (platforms doc) >>= fun _ => ofValue file true (.obj doc)) = _
    rw [hok]
    exact hread

/-- The target is the only section of a platform, if there is but one. -/
theorem target?_of_only (h : DescribesOnly doc kind fs) :
    target? doc (platforms doc) = some ⟨kind, fs⟩ := by
  rw [platforms_eq_singleton_iff.mpr h]
  rfl

theorem load_value_eq (env : Environment) (file : Option String) (anyTarget : Bool) (text : String) :
    (load env file anyTarget text).run.value =
      readText env (DeviceId.quote text).value >>= ofValue file anyTarget := rfl

/-- A text is loaded with the check if it is loaded without, and its document has exactly one
section of a platform. -/
theorem load_checked_iff : (load env file false text).run.value = .ok s ↔
    (load env file' true text).run.value = .ok s ∧
      ∃ doc kind fs, readText env (DeviceId.quote text).value = .ok (.obj doc) ∧
        DescribesOnly doc kind fs := by
  rw [load_value_eq, load_value_eq]
  cases readText env (DeviceId.quote text).value with
  | error e => exact ⟨nofun, fun h => nomatch h.1⟩
  | ok v =>
    cases v with
    | obj doc =>
      refine ofValue_checked_iff.trans (and_comm.trans (and_congr_right fun _ => ?_))
      constructor
      · rintro ⟨kind, fs, honly⟩
        exact ⟨doc, kind, fs, rfl, honly⟩
      · rintro ⟨doc', kind, fs, heq, honly⟩
        cases heq
        exact ⟨kind, fs, honly⟩
    | _ => exact ⟨nofun, fun h => nomatch h.1⟩

/-- **Checking the target only filters.** A text is loaded with the check if and only if it is
loaded without and its document has exactly one section of a platform, which is an object. Then
both ways lead to the same script, with that section for its target, and nothing else is reported,
whatever files the text is said to be from. -/
theorem load_filtered (env : Environment) (file file' : Option String) (text : String) :
    let checked := (load env file false text).run
    let unchecked := (load env file' true text).run
    ((∃ s, checked.value = .ok s) ↔ (∃ s, unchecked.value = .ok s) ∧
        ∃ doc kind fs, readText env (DeviceId.quote text).value = .ok (.obj doc) ∧
          DescribesOnly doc kind fs) ∧
      (∀ s, checked.value = .ok s → unchecked.value = .ok s ∧
        ∃ doc kind fs, readText env (DeviceId.quote text).value = .ok (.obj doc) ∧
          DescribesOnly doc kind fs ∧ kind ≠ .generic ∧ s.target = some ⟨kind, fs⟩) ∧
      checked.warnings = unchecked.warnings := by
  intro checked unchecked
  refine ⟨?_, fun s hs => ?_, rfl⟩
  · rw [← exists_and_right]
    exact exists_congr fun s => load_checked_iff
  · have hboth : unchecked.value = .ok s ∧ _ := load_checked_iff.mp hs
    obtain ⟨hunchecked, doc, kind, fs, hread, honly⟩ := hboth
    refine ⟨hunchecked, doc, kind, fs, hread, honly, ?_, ?_⟩
    · rintro rfl
      exact honly.1
    · have hofValue : ofValue file' true (.obj doc) = .ok s := by
        have hload := load_value_eq env file' true text
        rw [hread] at hload
        exact hload.symm.trans hunchecked
      rw [(ofValue_unchecked_iff.mp hofValue).2, target?_of_only honly]

end Runbook.Script
