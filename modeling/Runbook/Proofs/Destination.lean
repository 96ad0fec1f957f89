/-
Where results go that no path is asked for.

Their file is named after the script and the time of the run. What the script is called is the last
name of its path without the ending (`namedAfter_iff`), and neither that nor the text of a time has
a slash in it, so the whole name is one step of a path, into no other folder than the one for
results (`choose_confined`).
-/
import Runbook.Config
import Runbook.Proofs.Path

namespace Runbook.Destination

open Runbook.Path (IsName EndsIn)

/-- A script is called by its name without the ending. -/
inductive Called : String → String → Prop
  | yaml (stem : String) : Called (stem ++ ".yaml") stem
  | yml (stem : String) : Called (stem ++ ".yml") stem
  | whole {name : String} (hyaml : ∀ stem, name ≠ stem ++ ".yaml")
      (hyml : ∀ stem, name ≠ stem ++ ".yml") : Called name name

/-- Results are named after the script, if its path is known and ends in a name that is not the way
up. -/
inductive NamedAfter : Option String → String → Prop
  | script {path name stem : String} (hname : IsName name) (hends : EndsIn name path)
      (hup : name ≠ "..") (hcalled : Called name stem) : NamedAfter (some path) stem
  | nameless {path : String} (h : ∀ name, IsName name → EndsIn name path → name = "..") :
      NamedAfter (some path) "script"
  | unknown : NamedAfter none "script"

variable {name stem stamp ending text : String} {script : Option String}

/-! ## Stems -/

theorem withoutEnding?_eq_some_iff :
    Path.withoutEnding? ending text = some stem ↔ text = stem ++ ending := by
  rw [Path.withoutEnding?, Option.map_eq_some_iff]
  simp only [List.isSuffixOf?_eq_some_iff_append_eq]
  constructor
  · rintro ⟨front, hfront, rfl⟩
    rw [← String.toList_inj, ← hfront, String.toList_append, String.toList_ofList]
  · rintro rfl
    exact ⟨stem.toList, String.toList_append.symm, String.ofList_toList⟩

theorem withoutEnding?_eq_none_iff :
    Path.withoutEnding? ending text = none ↔ ∀ stem, text ≠ stem ++ ending := by
  simp only [Option.eq_none_iff_forall_ne_some, ne_eq, withoutEnding?_eq_some_iff]

/-- No name has both endings. -/
theorem yml_ne_yaml (stem stem' : String) : stem ++ ".yml" ≠ stem' ++ ".yaml" := by
  intro h
  have hreverse := congrArg (fun s => s.toList.reverse) h
  simp at hreverse

theorem called_iff : Called name stem ↔
    ((Path.withoutEnding? ".yaml" name).or (Path.withoutEnding? ".yml" name)).getD name = stem := by
  constructor
  · intro h
    cases h with
    | yaml =>
      rw [withoutEnding?_eq_some_iff.mpr rfl]
      rfl
    | yml =>
      rw [withoutEnding?_eq_none_iff.mpr (yml_ne_yaml stem), withoutEnding?_eq_some_iff.mpr rfl]
      rfl
    | whole hyaml hyml =>
      rw [withoutEnding?_eq_none_iff.mpr hyaml, withoutEnding?_eq_none_iff.mpr hyml]
      rfl
  · rintro rfl
    cases hyaml : Path.withoutEnding? ".yaml" name with
    | some stem =>
      rw [withoutEnding?_eq_some_iff] at hyaml
      exact hyaml ▸ .yaml stem
    | none =>
      cases hyml : Path.withoutEnding? ".yml" name with
      | some stem =>
        rw [withoutEnding?_eq_some_iff] at hyml
        exact hyml ▸ .yml stem
      | none =>
        exact .whole (withoutEnding?_eq_none_iff.mp hyaml) (withoutEnding?_eq_none_iff.mp hyml)

/-- A script is called one thing only. -/
theorem namedAfter_iff : NamedAfter script stem ↔ Destination.stem script = stem := by
  constructor
  · intro h
    cases h with
    | script hname hends hup hcalled =>
      have hlast := Path.fileName?_eq_some_iff.mpr ⟨hname, hends, hup⟩
      simp only [Destination.stem, Option.bind_some, hlast]
      exact called_iff.mp hcalled
    | nameless h =>
      simp only [Destination.stem, Option.bind_some, Path.fileName?_eq_none_iff.mpr h]
    | unknown => rfl
  · rintro rfl
    cases script with
    | none => exact .unknown
    | some path =>
      simp only [Destination.stem, Option.bind_some]
      cases hlast : Path.fileName? path with
      | none => exact .nameless (Path.fileName?_eq_none_iff.mp hlast)
      | some name =>
        obtain ⟨hname, hends, hup⟩ := Path.fileName?_eq_some_iff.mp hlast
        exact .script hname hends hup (called_iff.mpr rfl)

/-! ## Names of files -/

theorem noSlash_of_called (hname : '/' ∉ name.toList) (h : Called name stem) :
    '/' ∉ stem.toList := by
  cases h with
  | yaml => simpa using hname
  | yml => simpa using hname
  | whole => exact hname

theorem noSlash_of_namedAfter (h : NamedAfter script stem) : '/' ∉ stem.toList := by
  cases h with
  | script hname _ _ hcalled => exact noSlash_of_called hname.noSlash hcalled
  | nameless => decide
  | unknown => decide

theorem noSlash_toString (n : Int) : '/' ∉ (toString n).toList := by
  have hdigits : ∀ k : Nat, '/' ∉ (toString k).toList := by
    intro k hmem
    rw [Nat.toString_eq_repr, Nat.toList_repr] at hmem
    cases Nat.isDigit_of_mem_toDigits (by omega) (by omega) hmem
  cases n with
  | ofNat k => exact hdigits k
  | negSucc k =>
    show '/' ∉ ("-" ++ toString (k + 1)).toList
    rw [String.toList_append, List.mem_append, not_or]
    exact ⟨by decide, hdigits (k + 1)⟩

theorem isName_stampedName (hstem : '/' ∉ stem.toList) (hstamp : '/' ∉ stamp.toList) :
    IsName (stampedName stem stamp) ∧ stampedName stem stamp ≠ ".." := by
  have hlength : 6 ≤ (stampedName stem stamp).length := by
    simp only [stampedName, String.length_append]
    have hdash : "-".length = 1 := rfl
    have hending : ".json".length = 5 := rfl
    omega
  have hslash : '/' ∉ (stampedName stem stamp).toList := by
    simp [stampedName, hstem, hstamp]
  have hne : ∀ text : String, text.length < 6 → stampedName stem stamp ≠ text := by
    rintro text htext rfl
    omega
  exact ⟨⟨hslash, hne _ (by decide), hne _ (by decide)⟩, hne _ (by decide)⟩

/-- **Results that no path is asked for stay in their folder.** Their path is that of the folder
`output` among the generated files, a slash and one name, whatever the path of the script is. The
name is what the script is called by, the time of the run and an ending. -/
theorem choose_confined {output : Option String} (houtput : output = none ∨ output = some "")
    (config : Config) (script : Option String) (millis : Int) :
    ∃ stem, (∀ s, NamedAfter script s ↔ s = stem) ∧
      let folder := Path.join config.runDir "output"
      let name := stem ++ "-" ++ toString millis ++ ".json"
      let path := (choose config output script).path (toString millis)
      IsName name ∧ name ≠ ".." ∧ path = Path.join folder name ∧ path = folder ++ "/" ++ name ∧
        Path.steps path = Path.steps config.runDir ++ ["output".toList, name.toList] := by
  refine ⟨stem script, fun s => namedAfter_iff.trans eq_comm, ?_⟩
  intro folder name path
  have hoff : '/' ∉ (stem script).toList := noSlash_of_namedAfter (namedAfter_iff.mpr rfl)
  obtain ⟨hname, hup⟩ : IsName name ∧ name ≠ ".." :=
    isName_stampedName hoff (noSlash_toString millis)
  have houtputName : IsName "output" := ⟨by decide, by decide, by decide⟩
  have hpath : path = Path.join folder name := by
    rcases houtput with rfl | rfl <;> rfl
  have hrelative := Path.isAbsolute_of_noSlash hname.noSlash
  refine ⟨hname, hup, hpath, hpath.trans (Path.join_join houtputName hrelative), ?_⟩
  rw [hpath, Path.steps_join hrelative, Path.steps_join (by decide), Path.steps_name houtputName,
    Path.steps_name hname, List.append_assoc]
  rfl

/-- The path of the script goes up and comes down again, and has a dot behind its last slash but
one. -/
theorem choose_confined_login :
    let config : Config := ⟨"/tmp/run/", true, "/work"⟩
    let path := (choose config (some "") (some "flows/../login.yaml/./")).path
      (toString (1700000000000 : Int))
    path = "/tmp/run/output/login-1700000000000.json" ∧
      Path.steps path = ["tmp", "run", "output", "login-1700000000000.json"].map String.toList := by
  intro config path
  obtain ⟨stem, hstem, -, -, -, hpath, hsteps⟩ :=
    choose_confined (.inr rfl) config (some "flows/../login.yaml/./") 1700000000000
  have hends : EndsIn "login.yaml" "flows/../login.yaml/./" :=
    .idle (.inl rfl) (.idle (.inr rfl) (.inside "flows/.."))
  obtain rfl : "login" = stem := (hstem "login").mp
    (.script ⟨by decide, by decide, by decide⟩ hends (by decide) (.yaml "login"))
  exact ⟨hpath.trans (by decide +kernel), hsteps.trans (by decide +kernel)⟩

end Runbook.Destination
