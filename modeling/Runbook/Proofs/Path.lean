/-
Paths, taken apart.

What stands between the slashes of a path is what stands in front of one of them and what stands
behind it (`steps_slash`), so a path in a folder has the steps of the folder and then its own
(`steps_join`). The last step of a path is the name it ends in, slashes and idle dots behind that
name passed over (`getLast?_steps_iff`).
-/
import Mathlib.Data.List.Basic
import Runbook.Path

namespace Runbook.Path

/-- A part of a path that leads somewhere. -/
structure IsName (name : String) : Prop where
  noSlash : '/' ∉ name.toList
  notEmpty : name ≠ ""
  notDot : name ≠ "."

/-- A path ends in a name that stands alone or behind a slash. A slash at the end of the path counts
for nothing, with a dot behind it or without. -/
inductive EndsIn (name : String) : String → Prop
  | alone : EndsIn name name
  | inside (folder : String) : EndsIn name (folder ++ "/" ++ name)
  | idle {path part : String} (hpart : part = "" ∨ part = ".") (h : EndsIn name path) :
      EndsIn name (path ++ "/" ++ part)

variable {base path name folder : String}

/-! ## Steps -/

theorem steps_slash (base path : String) :
    steps (base ++ "/" ++ path) = steps base ++ steps path := by
  have hparts : parts (base ++ "/" ++ path) = parts base ++ parts path := by
    simp [parts, List.splitOn_append_cons_self]
  rw [steps, hparts, List.filter_append]
  rfl

theorem isIdle_toList : isIdle name.toList = true ↔ name = "" ∨ name = "." := by
  have hempty : name.toList = [] ↔ name = "" := String.toList_eq_nil_iff
  have hdot : name.toList = ['.'] ↔ name = "." := by
    rw [← String.toList_inj]
    rfl
  simp [isIdle, hempty, hdot]

theorem steps_idle (h : name = "" ∨ name = ".") : steps name = [] := by
  rcases h with rfl | rfl <;> rfl

theorem steps_name (h : IsName name) : steps name = [name.toList] := by
  have hparts : parts name = [name.toList] := List.splitOn_eq_singleton h.noSlash
  have hidle : isIdle name.toList = false := by
    rw [Bool.eq_false_iff, ne_eq, isIdle_toList]
    exact fun hor => hor.elim h.notEmpty h.notDot
  simp [steps, hparts, hidle]

theorem steps_join (hpath : isAbsolute path = false) :
    steps (join base path) = steps base ++ steps path := by
  rw [join, if_neg (by simp [hpath])]
  split
  · next hbase =>
    -- the base is empty, or the slash in front of the path is its own
    simp only [Bool.or_eq_true, String.isEmpty_iff, beq_iff_eq, List.getLast?_eq_some_iff] at hbase
    rcases hbase with rfl | ⟨front, hfront⟩
    · rw [String.empty_append, steps_idle (.inl rfl), List.nil_append]
    · have hbase : base = String.ofList front ++ "/" ++ "" := by
        rw [← String.toList_inj, hfront]
        simp
      rw [hbase, steps_slash _ "", String.append_empty, steps_slash, steps_idle (.inl rfl),
        List.append_nil]
  · exact steps_slash base path

/-! ## Joining -/

theorem isAbsolute_of_noSlash (h : '/' ∉ path.toList) : isAbsolute path = false := by
  rw [isAbsolute, beq_eq_false_iff_ne]
  exact fun hhead => h (List.mem_of_mem_head? hhead)

/-- What is joined last stands last. -/
theorem exists_join_eq_append (base : String) (hpath : isAbsolute path = false) :
    ∃ front, join base path = front ++ path := by
  rw [join, if_neg (by simp [hpath])]
  split
  · exact ⟨base, rfl⟩
  · exact ⟨base ++ "/", rfl⟩

/-- Between a folder that has a name and what is in it comes one slash. -/
theorem join_join (hfolder : IsName folder) (hpath : isAbsolute path = false) :
    join (join base folder) path = join base folder ++ "/" ++ path := by
  obtain ⟨front, hfront⟩ := exists_join_eq_append base (isAbsolute_of_noSlash hfolder.noSlash)
  have hempty : (front ++ folder).isEmpty = false := by simp [hfolder.notEmpty]
  have hlast : ¬ (front ++ folder).toList.getLast? = some '/' := by
    rw [String.toList_append, List.getLast?_append_of_ne_nil _ (by simpa using hfolder.notEmpty)]
    exact fun h => hfolder.noSlash (List.mem_of_getLast? h)
  rw [hfront, join, if_neg (by simp [hpath]), if_neg]
  rw [hempty, Bool.false_or, beq_iff_eq]
  exact hlast

/-! ## The last name -/

theorem exists_last_slash (h : '/' ∈ path.toList) :
    ∃ base name, path = base ++ "/" ++ name ∧ '/' ∉ name.toList := by
  obtain ⟨after, before, hpath, hafter⟩ := List.eq_append_cons_of_mem (List.mem_reverse.mpr h)
  refine ⟨String.ofList before.reverse, String.ofList after.reverse, ?_, by simpa using hafter⟩
  rw [← String.toList_inj]
  have hlist := congrArg List.reverse hpath
  simpa using hlist

theorem isName_of_noSlash (hslash : '/' ∉ name.toList) (hidle : ¬ (name = "" ∨ name = ".")) :
    IsName name :=
  ⟨hslash, fun hempty => hidle (.inl hempty), fun hdot => hidle (.inr hdot)⟩

/-- The last step is found from the back: what stands behind the last slash is idle, and what stands
in front of it is looked at again, or it is the name. -/
theorem endsIn_of_getLast?_steps (h : (steps path).getLast? = some name.toList) :
    IsName name ∧ EndsIn name path := by
  induction hlength : path.length using Nat.strongRecOn generalizing path with
  | ind n ih =>
    by_cases hslash : '/' ∈ path.toList
    · obtain ⟨base, last, rfl, hlast⟩ := exists_last_slash hslash
      rw [steps_slash] at h
      by_cases hidle : last = "" ∨ last = "."
      · rw [steps_idle hidle, List.append_nil] at h
        have hshorter : base.length < n := by
          have hone : "/".length = 1 := rfl
          simp only [String.length_append] at hlength
          omega
        obtain ⟨hname, hends⟩ := ih _ hshorter h rfl
        exact ⟨hname, .idle hidle hends⟩
      · have hname := isName_of_noSlash hlast hidle
        rw [steps_name hname, List.getLast?_concat, Option.some.injEq, String.toList_inj] at h
        exact h ▸ ⟨hname, .inside base⟩
    · by_cases hidle : path = "" ∨ path = "."
      · rw [steps_idle hidle] at h
        cases h
      · have hname := isName_of_noSlash hslash hidle
        rw [steps_name hname, List.getLast?_singleton, Option.some.injEq, String.toList_inj] at h
        exact h ▸ ⟨hname, .alone⟩

theorem getLast?_steps_iff :
    (steps path).getLast? = some name.toList ↔ IsName name ∧ EndsIn name path := by
  constructor
  · exact endsIn_of_getLast?_steps
  · rintro ⟨hname, hends⟩
    induction hends with
    | alone => rw [steps_name hname, List.getLast?_singleton]
    | inside folder => rw [steps_slash, steps_name hname, List.getLast?_concat]
    | idle hpart _ ih => rw [steps_slash, steps_idle hpart, List.append_nil, ih]

/-- The last name is what a path ends in, unless that is the way up. -/
theorem fileName?_eq_some_iff :
    fileName? path = some name ↔ IsName name ∧ EndsIn name path ∧ name ≠ ".." := by
  have hparent : name.toList = parent ↔ name = ".." := by
    rw [← String.toList_inj]
    rfl
  rw [← and_assoc, ← getLast?_steps_iff, fileName?]
  cases (steps path).getLast? with
  | none => simp
  | some part =>
    simp only [beq_iff_eq]
    constructor
    · intro h
      split at h
      · cases h
      · next hpart =>
        cases h
        rw [String.toList_ofList] at hparent ⊢
        exact ⟨rfl, mt hparent.mpr hpart⟩
    · rintro ⟨hpart, hup⟩
      cases hpart
      rw [if_neg (mt hparent.mp hup), String.ofList_toList]

theorem fileName?_eq_none_iff :
    fileName? path = none ↔ ∀ name, IsName name → EndsIn name path → name = ".." := by
  simp only [Option.eq_none_iff_forall_ne_some, ne_eq, fileName?_eq_some_iff, not_and, not_not]

end Runbook.Path
