/-
What quoting and expanding make of a text.

An id is found where a label is followed by blanks and a digit (`isSome_id?_iff`). Quoting puts
every one of them between quotes wherever it stands, so that none is left (`id?_quoted`), and
leaves alone what has no label in it (`segments_append`). Expanding leaves alone what has no dollar
sign in it (`expand_append`).
-/
import Mathlib.Data.List.Basic
import Mathlib.Data.List.Infix
import Runbook.Proofs.Decode
import Runbook.Proofs.Text
import Runbook.Script.DeviceId
import Runbook.Script.Placeholder

namespace Runbook

namespace DeviceId

variable {cs ds blanks rest word after : List Char} {c d : Char}

/-! ## One id -/

theorem label_eq : label = ['d', 'e', 'v', 'i', 'c', 'e', 'I', 'd', ':'] := by decide

/-- What is read after a label and blanks. -/
theorem id?_label (hblanks : ∀ b ∈ blanks, Text.isBlank b = true)
    (hd : Text.isDecimalDigit d = true) (rest : List Char) :
    id? (label ++ blanks ++ d :: rest) =
      some (d :: rest.takeWhile Text.isDecimalDigit, rest.dropWhile Text.isDecimalDigit) := by
  have hlabel : label.isPrefixOf (label ++ blanks ++ d :: rest) = true := by
    rw [List.isPrefixOf_iff_prefix, List.append_assoc]
    exact List.prefix_append _ _
  have hsolid : ¬ Text.isBlank d = true := by
    rw [Text.isBlank_of_isDecimalDigit hd]
    exact Bool.false_ne_true
  have htrim : Text.trimStart ((label ++ blanks ++ d :: rest).drop label.length) = d :: rest := by
    rw [List.append_assoc, List.drop_left, Text.trimStart, List.dropWhile_append_of_pos hblanks,
      List.dropWhile_cons_of_neg hsolid]
  rw [id?, if_pos hlabel]
  simp only [htrim, List.takeWhile_cons_of_pos hd, List.dropWhile_cons_of_pos hd]

/-- A run of digits behind a label and blanks is read as the id. -/
theorem id?_digits (hblanks : ∀ b ∈ blanks, Text.isBlank b = true) (hne : ds ≠ [])
    (hds : ∀ d ∈ ds, Text.isDecimalDigit d = true)
    (hrest : ∀ c, rest.head? = some c → Text.isDecimalDigit c = false) :
    id? (label ++ blanks ++ ds ++ rest) = some (ds, rest) := by
  obtain ⟨htake, hdrop⟩ := Text.takeWhile_run hds hrest
  cases ds with
  | nil => exact absurd rfl hne
  | cons d ds =>
    have hd : Text.isDecimalDigit d = true := hds d (by simp)
    rw [List.cons_append, List.takeWhile_cons_of_pos hd] at htake
    rw [List.cons_append, List.dropWhile_cons_of_pos hd] at hdrop
    rw [List.append_assoc, List.cons_append, id?_label hblanks hd, htake, hdrop]

theorem isSome_id?_iff : (id? cs).isSome = true ↔
    ∃ blanks d rest, cs = label ++ blanks ++ d :: rest ∧
      (∀ b ∈ blanks, Text.isBlank b = true) ∧ Text.isDecimalDigit d = true := by
  constructor
  · intro h
    unfold id? at h
    split at h
    · next hlabel =>
      obtain ⟨content, rfl⟩ := List.isPrefixOf_iff_prefix.mp hlabel
      rw [List.drop_left] at h
      have hcontent := List.takeWhile_append_dropWhile (p := Text.isBlank) (l := content)
      cases htrim : Text.trimStart content with
      | nil =>
        rw [htrim] at h
        cases h
      | cons d rest =>
        rw [htrim] at h
        cases hd : Text.isDecimalDigit d with
        | false =>
          simp only [List.takeWhile_cons, hd] at h
          cases h
        | true =>
          refine ⟨content.takeWhile Text.isBlank, d, rest, ?_, fun b hb => ?_, hd⟩
          · rw [List.append_assoc, ← htrim, Text.trimStart, hcontent]
          · exact List.all_eq_true.mp List.all_takeWhile b hb
    · cases h
  · rintro ⟨blanks, d, rest, rfl, hblanks, hd⟩
    rw [id?_label hblanks hd]
    rfl

/-! ## Texts without a label -/

/-- No label begins in the characters, nor with the last of them. -/
def isUnlabelled : List Char → Bool
  | [] => true
  | [c] => c != 'd'
  | a :: b :: cs => !(a == 'd' && b == 'e') && isUnlabelled (b :: cs)

theorem isUnlabelled_tail (h : isUnlabelled (c :: cs) = true) : isUnlabelled cs = true := by
  cases cs with
  | nil => rfl
  | cons b cs => exact (Bool.and_eq_true_iff.mp h).2

theorem isUnlabelled_of_suffix (h : isUnlabelled cs = true) (hafter : after <:+ cs) :
    isUnlabelled after = true := by
  obtain ⟨before, rfl⟩ := hafter
  induction before with
  | nil => exact h
  | cons c before ih => exact ih (isUnlabelled_tail h)

theorem isUnlabelled_append (h : isUnlabelled cs = true) (hds : isUnlabelled ds = true) :
    isUnlabelled (cs ++ ds) = true := by
  induction cs with
  | nil => exact hds
  | cons c cs ih =>
    have hmore := ih (isUnlabelled_tail h)
    cases cs with
    | nil =>
      cases ds with
      | nil => exact h
      | cons d ds =>
        have hc : (c == 'd') = false := by simpa [isUnlabelled] using h
        exact Bool.and_eq_true_iff.mpr ⟨by rw [hc]; rfl, hmore⟩
    | cons b cs => exact Bool.and_eq_true_iff.mpr ⟨(Bool.and_eq_true_iff.mp h).1, hmore⟩

theorem isUnlabelled_of_not_mem (h : 'd' ∉ cs) : isUnlabelled cs = true := by
  induction cs with
  | nil => rfl
  | cons c cs ih =>
    have hc : isUnlabelled [c] = true := by
      have hne : c ≠ 'd' := fun heq => h (by simp [heq])
      simpa [isUnlabelled] using hne
    have happend := isUnlabelled_append hc (ih fun hmem => h (by simp [hmem]))
    exact happend

theorem id?_of_isUnlabelled (h : isUnlabelled (c :: cs) = true) (rest : List Char) :
    id? (c :: (cs ++ rest)) = none := by
  have hlabel : label.isPrefixOf (c :: (cs ++ rest)) = false := by
    rw [Bool.eq_false_iff, ne_eq, List.isPrefixOf_iff_prefix, label_eq]
    rintro ⟨tail, htail⟩
    cases cs with
    | nil =>
      obtain ⟨rfl, -⟩ := List.cons.inj htail
      cases h
    | cons b cs =>
      obtain ⟨rfl, hmore⟩ := List.cons.inj htail
      obtain ⟨rfl, -⟩ := List.cons.inj hmore
      cases h
  rw [id?, hlabel]
  rfl

/-! ## All ids of a text -/

theorem segments_literal (h : id? (c :: cs) = none) :
    segments (c :: cs) = .literal c :: segments cs := by
  rw [segments]
  split
  · next hsome =>
    rw [h] at hsome
    cases hsome
  · rfl

theorem segments_id (h : id? cs = some (ds, rest)) : segments cs = .id ds :: segments rest := by
  cases cs with
  | nil => cases h
  | cons c cs =>
    rw [segments]
    split
    · next hsome =>
      rw [h] at hsome
      cases hsome
      rfl
    · next hnone =>
      rw [h] at hnone
      cases hnone

theorem segments_append (h : isUnlabelled cs = true) (rest : List Char) :
    segments (cs ++ rest) = cs.map .literal ++ segments rest := by
  induction cs with
  | nil => rfl
  | cons c cs ih =>
    rw [List.cons_append, segments_literal (id?_of_isUnlabelled h rest), ih (isUnlabelled_tail h)]
    rfl

/-- The characters of a text with its ids between quotes. -/
def quoted (cs : List Char) : List Char := (segments cs).flatMap Segment.quoted

theorem quoted_literal (h : id? (c :: cs) = none) : quoted (c :: cs) = c :: quoted cs := by
  rw [quoted, segments_literal h]
  rfl

theorem quoted_id (h : id? cs = some (ds, rest)) :
    quoted cs = label ++ [' ', '\''] ++ ds ++ ['\''] ++ quoted rest := by
  rw [quoted, segments_id h]
  rfl

theorem quoted_append (h : isUnlabelled cs = true) (rest : List Char) :
    quoted (cs ++ rest) = cs ++ quoted rest := by
  have hliteral : ∀ cs : List Char, (cs.map Segment.literal).flatMap Segment.quoted = cs := by
    intro cs
    induction cs with
    | nil => rfl
    | cons c cs ih =>
      rw [List.map_cons, List.flatMap_cons, ih]
      rfl
  rw [quoted, segments_append h, List.flatMap_append, hliteral]
  rfl

theorem head?_quoted (cs : List Char) : (quoted cs).head? = cs.head? := by
  cases cs with
  | nil =>
    rw [quoted, segments]
    rfl
  | cons c cs =>
    cases hid : id? (c :: cs) with
    | none =>
      rw [quoted_literal hid]
      rfl
    | some found =>
      obtain ⟨blanks, d, rest, hcs, -⟩ := isSome_id?_iff.mp (Option.isSome_of_mem hid)
      rw [quoted_id hid, hcs]
      rfl

theorem occurs_append {part : List Char} (h : part ≠ []) (rest : List Char) :
    occurs part (part ++ rest) = true := by
  have hprefix : part.isPrefixOf (part ++ rest) = true :=
    List.isPrefixOf_iff_prefix.mpr (List.prefix_append _ _)
  cases part with
  | nil => exact absurd rfl h
  | cons c part =>
    rw [List.cons_append] at hprefix ⊢
    rw [occurs, hprefix]
    rfl

/-- A text that mentions android has its ids quoted, if there are any. -/
theorem quote_value {text : String} (h : occurs "android".toList text.toList = true) :
    (quote text).value = String.ofList (quoted text.toList) := by
  have hnone : ∀ cs, (segments cs).filterMap Segment.digits? = [] → quoted cs = cs := by
    intro cs hcs
    induction cs using segments.induct with
    | case1 =>
      rw [quoted, segments]
      rfl
    | case2 c cs ds rest hid _ ih =>
      rw [segments_id hid] at hcs
      cases hcs
    | case3 c cs hid ih =>
      rw [segments_literal hid] at hcs
      rw [quoted_literal hid, ih hcs]
  unfold quote
  dsimp only
  rw [h]
  split
  · rfl
  · next hlast =>
    have hnil : (segments text.toList).filterMap Segment.digits? = [] := by
      cases hids : (segments text.toList).filterMap Segment.digits? with
      | nil => rfl
      | cons ds more =>
        rw [hids] at hlast
        exact absurd (List.getLast?_eq_getLast_of_ne_nil (by simp)) (hlast _ rfl)
    rw [hnone _ hnil, String.ofList_toList]
    rfl

/-- Characters without a label at the start of the quoted text are those of the text. -/
theorem prefix_of_quoted (h : isUnlabelled word = true) (hword : word <+: quoted cs) :
    word <+: cs := by
  induction word generalizing cs with
  | nil => exact List.nil_prefix
  | cons a word ih =>
    cases cs with
    | nil =>
      rw [quoted, segments] at hword
      exact hword
    | cons c cs =>
      cases hid : id? (c :: cs) with
      | none =>
        rw [quoted_literal hid] at hword
        obtain ⟨rfl, hmore⟩ := List.cons_prefix_cons.mp hword
        exact List.cons_prefix_cons.mpr ⟨rfl, ih (isUnlabelled_tail h) hmore⟩
      | some found =>
        -- A quoted id begins with a label, and its first two letters are in no such word.
        rw [quoted_id hid, label_eq] at hword
        obtain ⟨rfl, hmore⟩ := List.cons_prefix_cons.mp hword
        cases word with
        | nil => cases h
        | cons b word =>
          obtain ⟨rfl, -⟩ := List.cons_prefix_cons.mp hmore
          cases h

/-- Where no id begins, none does once the ids behind are quoted. -/
theorem id?_cons_quoted (h : id? (c :: cs) = none) : id? (c :: quoted cs) = none := by
  by_contra hsome
  obtain ⟨blanks, d, rest, heq, hblanks, hd⟩ :=
    isSome_id?_iff.mp (Option.isSome_iff_ne_none.mpr hsome)
  have hd' : 'd' ≠ d := (Text.ne_of_isDecimalDigit hd rfl).symm
  have hword :
      isUnlabelled (['e', 'v', 'i', 'c', 'e', 'I', 'd', ':'] ++ (blanks ++ [d])) = true := by
    refine isUnlabelled_append rfl (isUnlabelled_of_not_mem fun hmem => ?_)
    rcases List.mem_append.mp hmem with hmem | hmem
    · cases hblanks _ hmem
    · exact hd' (List.mem_singleton.mp hmem)
  rw [label_eq] at heq
  obtain ⟨rfl, hquoted⟩ := List.cons.inj heq
  obtain ⟨tail, htail⟩ := prefix_of_quoted hword ⟨rest, by rw [hquoted]; simp⟩
  have hid : (id? ('d' :: cs)).isSome = true := by
    refine isSome_id?_iff.mpr ⟨blanks, d, tail, ?_, hblanks, hd⟩
    rw [← htail, label_eq]
    simp
  rw [h] at hid
  cases hid

/-- The digits of an id are digits. -/
theorem not_mem_of_id? (h : id? cs = some (ds, rest)) : 'd' ∉ ds := by
  obtain ⟨blanks, d, tail, rfl, hblanks, hd⟩ := isSome_id?_iff.mp (Option.isSome_of_mem h)
  rw [id?_label hblanks hd] at h
  cases h
  intro hmem
  rcases List.mem_cons.mp hmem with rfl | hmem
  · cases hd
  · cases List.all_eq_true.mp List.all_takeWhile 'd' hmem

/-- Neither at a label whose digits are quoted nor behind it does an id begin. -/
theorem id?_quotedLabel (hds : 'd' ∉ ds) (hrest : id? rest = none)
    (hafter : after <:+ label ++ [' ', '\''] ++ ds ++ ['\'']) : id? (after ++ rest) = none := by
  rw [label_eq] at hafter
  rcases List.suffix_cons_iff.mp hafter with rfl | hafter
  · have hquote : ∀ more, id? (label ++ [' ', '\''] ++ more) = none := by
      intro more
      rw [label_eq]
      rfl
    have heq := hquote (ds ++ ['\''] ++ rest)
    rw [label_eq] at heq
    simpa using heq
  · have hunlabelled : isUnlabelled
        (['e', 'v', 'i', 'c', 'e', 'I', 'd', ':'] ++ ([' ', '\''] ++ ds ++ ['\''])) = true := by
      refine isUnlabelled_append rfl (isUnlabelled_of_not_mem ?_)
      simpa using hds
    have hsuffix : isUnlabelled after = true :=
      isUnlabelled_of_suffix hunlabelled (by simpa using hafter)
    cases after with
    | nil => exact hrest
    | cons c after => exact id?_of_isUnlabelled hsuffix rest

/-- Quoting leaves no bare id. -/
theorem id?_quoted (h : after <:+ quoted cs) : id? after = none := by
  induction cs using segments.induct generalizing after with
  | case1 =>
    rw [quoted, segments] at h
    rw [List.suffix_nil.mp h]
    rfl
  | case2 c cs ds rest hid _ ih =>
    rw [quoted_id hid] at h
    -- What is looked at begins behind the quoted id, or within it.
    rcases List.suffix_or_suffix_of_suffix h (List.suffix_append _ _) with hbehind | hover
    · exact ih hbehind
    · obtain ⟨front, rfl⟩ := hover
      obtain ⟨before, hbefore⟩ := h
      rw [← List.append_assoc] at hbefore
      exact id?_quotedLabel (not_mem_of_id? hid) (ih List.suffix_rfl)
        ⟨before, List.append_cancel_right hbefore⟩
  | case3 c cs hid ih =>
    rw [quoted_literal hid] at h
    rcases List.suffix_cons_iff.mp h with rfl | h
    · exact id?_cons_quoted hid
    · exact ih h

/-- The id behind a text without a label is put between quotes. -/
theorem quoted_label (hcs : isUnlabelled cs = true)
    (hblanks : ∀ b ∈ blanks, Text.isBlank b = true) (hne : ds ≠ [])
    (hds : ∀ d ∈ ds, Text.isDecimalDigit d = true)
    (hrest : ∀ c, rest.head? = some c → Text.isDecimalDigit c = false) :
    quoted (cs ++ (label ++ blanks ++ ds ++ rest)) =
      cs ++ (label ++ [' ', '\''] ++ ds ++ ['\''] ++ quoted rest) := by
  rw [quoted_append hcs, quoted_id (id?_digits hblanks hne hds hrest)]

end DeviceId

/-! ## Expanding -/

namespace Placeholder

variable {env : Environment} {cs rest : List Char} {c : Char} {expanded : String}

theorem segments_literal (h : c ≠ '$') (cs : List Char) :
    segments (c :: cs) = .literal c :: segments cs := by
  rw [segments]
  intro tail heq
  exact absurd heq h

/-- A character that begins no placeholder stays. -/
theorem expand_cons (h : c ≠ '$')
    (hexpanded : expand env (String.ofList (c :: cs)) = .ok expanded) :
    ∃ tail, expanded = String.ofList (c :: tail) ∧
      expand env (String.ofList cs) = .ok (String.ofList tail) := by
  obtain ⟨parts, hparts, heq⟩ := bind_ok hexpanded
  cases heq
  rw [String.toList_ofList, segments_literal h, List.mapM_cons] at hparts
  obtain ⟨part, hpart, hparts⟩ := bind_ok hparts
  obtain ⟨others, hothers, heq⟩ := bind_ok hparts
  cases hpart
  cases heq
  refine ⟨others.flatten, rfl, ?_⟩
  rw [expand, String.toList_ofList, hothers]
  rfl

/-- A text without placeholders stays in front of what the rest expands to. The rest may begin
with something else only where it begins with a placeholder. -/
theorem expand_append (h : '$' ∉ cs)
    (hexpanded : expand env (String.ofList (cs ++ rest)) = .ok expanded) :
    ∃ tail, expanded = String.ofList (cs ++ tail) ∧
      (rest.head? ≠ some '$' → tail.head? = rest.head?) := by
  induction cs generalizing expanded with
  | nil =>
    refine ⟨expanded.toList, String.ofList_toList.symm, fun hrest => ?_⟩
    cases rest with
    | nil =>
      rw [List.nil_append, expand, String.toList_ofList, segments] at hexpanded
      cases hexpanded
      simp
    | cons c rest =>
      have hc : c ≠ '$' := fun heq => hrest (congrArg some heq)
      obtain ⟨tail, rfl, -⟩ := expand_cons hc hexpanded
      rw [String.toList_ofList]
      rfl
  | cons c cs ih =>
    have hc : c ≠ '$' := fun heq => h (by simp [heq])
    obtain ⟨tail, rfl, hmore⟩ := expand_cons hc hexpanded
    obtain ⟨tail', htail, hhead⟩ := ih (fun hmem => h (by simp [hmem])) hmore
    refine ⟨tail', ?_, hhead⟩
    rw [List.cons_append, String.ofList_injective htail]

end Placeholder

end Runbook
