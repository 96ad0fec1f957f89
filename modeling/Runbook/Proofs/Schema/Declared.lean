/-
Only what is declared counts.

Of an object a schema reads the entries under the names of its fields and no others
(`parse_congr`). Normalization looks for targets among the same names, so it reads no others
either (`normalize_congr`). The layers around the fields do not matter: where no function is applied
but the one that writes scalars out, an object goes through all of them as it is.
-/
import Runbook.Proofs.Schema.Accepted
import Runbook.Proofs.Schema.Steps

namespace Runbook.Schema

open Fields (get?)

variable {s : Schema} {fields : List Field} {fs gs : Object}

theorem parse_congr (h : ∀ f ∈ fields, get? f.name fs = get? f.name gs) (path : String) :
    ∀ {s : Schema}, s.OnlyStringifies → s.objectFields? = some fields →
      s.parse (some (.obj fs)) path = s.parse (some (.obj gs)) path
  | .object _, _, hs => by
    cases hs
    have hfields : parseFields fields fs path [] = parseFields fields gs path [] :=
      parseFields_congr_of_parse fun f hf => by rw [h f hf]
    simp only [parse_object, present, hfields]
  | .optional inner, hsteps, hs => by
    simpa only [parse_optional] using parse_congr h path (s := inner) hsteps hs
  | .nullable inner, hsteps, hs => by
    simpa only [parse_nullable] using parse_congr h path (s := inner) hsteps hs
  | .withDefault inner _, hsteps, hs => by
    simpa only [parse_withDefault, Option.some_or] using parse_congr h path (s := inner) hsteps hs
  | .preprocessed inner _, ⟨hstep, hsteps⟩, hs => by
    subst hstep
    simpa only [parse_preprocessed, Option.map_some, stringify] using
      parse_congr h path (s := inner) hsteps hs
  | .pipe first _, hsteps, hs => by
    simp only [parse_pipe, parse_congr h path (s := first) hsteps.1 hs]

/-- The names under which targets are looked for are declared. -/
theorem exists_field_of_mem_locatorNames (hs : s.objectFields? = some fields) {name : String}
    (hname : name ∈ s.locatorNames) : ∃ f ∈ fields, f.name = name := by
  rw [locatorNames, hs] at hname
  obtain ⟨f, hf, rfl⟩ := List.mem_map.mp hname
  exact ⟨f, (List.mem_filter.mp hf).1, rfl⟩

theorem normalize_congr (hsteps : s.OnlyStringifies) (hs : s.objectFields? = some fields)
    (h : ∀ f ∈ fields, get? f.name fs = get? f.name gs) :
    s.normalize (.obj fs) = s.normalize (.obj gs) := by
  have htargets : targets s.locatorNames fs = targets s.locatorNames gs := by
    refine targets_congr fun name hname => ?_
    obtain ⟨f, hf, rfl⟩ := exists_field_of_mem_locatorNames hs hname
    exact h f hf
  rw [normalize_obj, normalize_obj, htargets]
  congr 1
  refine parse_congr (fun f hf => ?_) "" hsteps hs
  rw [← htargets, get?_substitute, htargets, get?_substitute, h f hf]

end Runbook.Schema
