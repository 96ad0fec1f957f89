/-
Which ids are put between quotes, and that once is enough.

An id is all digits behind a label and blanks (`IsId`). In a text that mentions android every one
of them is quoted and nothing else is touched (`quotes_quoted`). What comes behind the digits is not
looked at: a serial number that goes on with letters or an address with its port has its first
digits quoted and the rest left outside. That there is none in the text is just what it takes for
the ids to be quoted that are digits and nothing else (`Quotes.chosen`, `Quotes.congr`). No id is
left, so quoting again changes nothing.
-/
import Runbook.Proofs.Script.Quoting

namespace Runbook.DeviceId

variable {cs out out' blanks blanks' ds ds' rest rest' after : List Char} {c : Char}
  {P Q : List Char → Prop}

/-! ## Ids in a text -/

/-- An id at the start of the characters: a label, blanks, and all digits up to the rest. -/
structure IsId (cs blanks ds rest : List Char) : Prop where
  eq : cs = label ++ blanks ++ ds ++ rest
  blanks : ∀ b ∈ blanks, Text.isBlank b = true
  ne_nil : ds ≠ []
  digits : ∀ d ∈ ds, Text.isDecimalDigit d = true
  ends : ∀ c, rest.head? = some c → Text.isDecimalDigit c = false

namespace IsId

theorem id?_eq (h : IsId cs blanks ds rest) : id? cs = some (ds, rest) := by
  rw [h.eq]
  exact id?_digits h.blanks h.ne_nil h.digits h.ends

theorem unique (h : IsId cs blanks ds rest) (h' : IsId cs blanks' ds' rest') :
    blanks' = blanks ∧ ds' = ds ∧ rest' = rest := by
  have hread := h'.id?_eq
  rw [h.id?_eq] at hread
  obtain ⟨rfl, rfl⟩ : ds = ds' ∧ rest = rest' := by simpa using hread
  have heq := h'.eq.symm.trans h.eq
  simp only [List.append_cancel_right_eq, List.append_cancel_left_eq] at heq
  exact ⟨heq, rfl, rfl⟩

/-- No id begins within another. -/
theorem of_suffix (h : IsId cs blanks ds rest) (hafter : after <:+ cs)
    (hid : (id? after).isSome = true) : after = cs ∨ after <:+ rest := by
  obtain ⟨d, ds, rfl⟩ := List.exists_cons_of_ne_nil h.ne_nil
  have hmem : 'd' ∉ blanks ++ d :: ds := fun hmem => by
    rcases List.mem_append.mp hmem with hmem | hmem
    · cases h.blanks _ hmem
    · cases h.digits _ hmem
  have hunlabelled :
      isUnlabelled (['e', 'v', 'i', 'c', 'e', 'I', 'd', ':'] ++ (blanks ++ d :: ds)) = true :=
    isUnlabelled_append rfl (isUnlabelled_of_not_mem hmem)
  have heq : cs = 'd' :: (['e', 'v', 'i', 'c', 'e', 'I', 'd', ':'] ++ (blanks ++ d :: ds) ++ rest) :=
    h.eq.trans (by simp [label_eq])
  rw [heq] at hafter ⊢
  rcases List.suffix_cons_iff.mp hafter with rfl | hafter
  · exact .inl rfl
  rcases List.suffix_or_suffix_of_suffix hafter (List.suffix_append _ _) with hbehind | hover
  · exact .inr hbehind
  · obtain ⟨front, rfl⟩ := hover
    obtain ⟨before, hbefore⟩ := hafter
    rw [← List.append_assoc] at hbefore
    have hfront := isUnlabelled_of_suffix hunlabelled ⟨before, List.append_cancel_right hbefore⟩
    cases front with
    | nil => exact .inr List.suffix_rfl
    | cons c front =>
      rw [List.cons_append, id?_of_isUnlabelled hfront] at hid
      cases hid

end IsId

theorem exists_isId (h : id? cs = some (ds, rest)) : ∃ blanks, IsId cs blanks ds rest := by
  obtain ⟨blanks, d, tail, rfl, hblanks, hd⟩ := isSome_id?_iff.mp (Option.isSome_of_mem h)
  rw [id?_label hblanks hd] at h
  cases h
  refine ⟨blanks, ?_, hblanks, nofun, ?_, fun c hc => Text.head?_dropWhile hc⟩
  · rw [List.append_assoc _ (d :: _), List.cons_append, List.takeWhile_append_dropWhile]
  · rw [List.forall_mem_cons]
    exact ⟨hd, List.all_eq_true.mp List.all_takeWhile⟩

/-! ## Quoting some of them -/

/-- The second characters are the first with those ids between quotes for which `P` holds of what
follows their digits. Everything else is left as it is. -/
inductive Quotes (P : List Char → Prop) : List Char → List Char → Prop
  | nil : Quotes P [] []
  | literal {c : Char} {cs out : List Char} (hno : ∀ blanks ds rest, ¬ IsId (c :: cs) blanks ds rest)
      (hcs : Quotes P cs out) : Quotes P (c :: cs) (c :: out)
  | quoted {cs blanks ds rest out : List Char} (hid : IsId cs blanks ds rest) (hP : P rest)
      (hrest : Quotes P rest out) : Quotes P cs (label ++ [' ', '\''] ++ ds ++ ['\''] ++ out)
  | kept {cs blanks ds rest out : List Char} (hid : IsId cs blanks ds rest) (hP : ¬ P rest)
      (hrest : Quotes P rest out) : Quotes P cs (label ++ blanks ++ ds ++ out)

theorem not_isId_nil : ¬ IsId [] blanks ds rest := fun h => by cases h.id?_eq

namespace Quotes

theorem unique (h : Quotes P cs out) (h' : Quotes P cs out') : out' = out := by
  induction h generalizing out' with
  | nil =>
    cases h' with
    | nil => rfl
    | quoted hid => exact absurd hid not_isId_nil
    | kept hid => exact absurd hid not_isId_nil
  | literal hno _ ih =>
    cases h' with
    | literal _ hcs => rw [ih hcs]
    | quoted hid => exact absurd hid (hno _ _ _)
    | kept hid => exact absurd hid (hno _ _ _)
  | quoted hid hP _ ih =>
    cases h' with
    | nil => exact absurd hid not_isId_nil
    | literal hno => exact absurd hid (hno _ _ _)
    | quoted hid' _ hrest =>
      obtain ⟨rfl, rfl, rfl⟩ := hid.unique hid'
      rw [ih hrest]
    | kept hid' hP' =>
      obtain ⟨-, -, rfl⟩ := hid.unique hid'
      exact absurd hP hP'
  | kept hid hP _ ih =>
    cases h' with
    | nil => exact absurd hid not_isId_nil
    | literal hno => exact absurd hid (hno _ _ _)
    | quoted hid' hP' =>
      obtain ⟨-, -, rfl⟩ := hid.unique hid'
      exact absurd hP' hP
    | kept hid' _ hrest =>
      obtain ⟨rfl, rfl, rfl⟩ := hid.unique hid'
      rw [ih hrest]

/-- It depends on what follows the ids of the text, and on nothing else that is chosen. -/
theorem congr (h : Quotes P cs out) (hsame : ∀ after blanks ds rest, after <:+ cs →
    IsId after blanks ds rest → (P rest ↔ Q rest)) : Quotes Q cs out := by
  have hbehind : ∀ {cs blanks ds rest}, IsId cs blanks ds rest → rest <:+ cs := fun hid =>
    hid.eq ▸ List.suffix_append _ _
  induction h with
  | nil => exact .nil
  | literal hno _ ih =>
    exact .literal hno (ih fun after _ _ _ hafter =>
      hsame after _ _ _ (hafter.trans (List.suffix_cons ..)))
  | quoted hid hP _ ih =>
    exact .quoted hid ((hsame _ _ _ _ List.suffix_rfl hid).mp hP) (ih fun after _ _ _ hafter =>
      hsame after _ _ _ (hafter.trans (hbehind hid)))
  | kept hid hP _ ih =>
    exact .kept hid (fun hQ => hP ((hsame _ _ _ _ List.suffix_rfl hid).mpr hQ))
      (ih fun after _ _ _ hafter => hsame after _ _ _ (hafter.trans (hbehind hid)))

/-- If no id is left, all were chosen. -/
theorem chosen (h : Quotes P cs out) (hout : ∀ after, after <:+ out → id? after = none)
    (hafter : after <:+ cs) (hid : IsId after blanks ds rest) : P rest := by
  induction h with
  | nil =>
    rw [List.suffix_nil.mp hafter] at hid
    exact absurd hid not_isId_nil
  | literal hno _ ih =>
    rcases List.suffix_cons_iff.mp hafter with rfl | hafter
    · exact absurd hid (hno _ _ _)
    · exact ih (fun after h => hout after (h.trans (List.suffix_cons ..))) hafter
  | quoted hid' hP _ ih =>
    rcases hid'.of_suffix hafter (Option.isSome_of_mem hid.id?_eq) with rfl | hafter
    · obtain ⟨-, -, rfl⟩ := hid'.unique hid
      exact hP
    · exact ih (fun after h => hout after (h.trans (List.suffix_append ..))) hafter
  | @kept cs blanks ds rest out hid' =>
    -- the id that was kept is still there
    obtain ⟨d, ds, rfl⟩ := List.exists_cons_of_ne_nil hid'.ne_nil
    have hleft : (id? (label ++ blanks ++ (d :: ds) ++ out)).isSome = true :=
      isSome_id?_iff.mpr ⟨blanks, d, ds ++ out, by simp, hid'.blanks, hid'.digits d (by simp)⟩
    rw [hout _ List.suffix_rfl] at hleft
    cases hleft

end Quotes

/-- All ids are quoted. -/
theorem quotes_quoted (cs : List Char) : Quotes (fun _ => True) cs (quoted cs) := by
  induction cs using segments.induct with
  | case1 =>
    rw [quoted, segments]
    exact .nil
  | case2 c cs ds rest hid _ ih =>
    obtain ⟨blanks, h⟩ := exists_isId hid
    rw [quoted_id hid]
    exact .quoted h trivial ih
  | case3 c cs hid ih =>
    rw [quoted_literal hid]
    refine .literal (fun blanks ds rest h => ?_) ih
    cases hid.symm.trans h.id?_eq

/-! ## The text -/

theorem occurs_iff_isInfix {part : List Char} : occurs part cs = true ↔ part <:+: cs := by
  induction cs with
  | nil => rw [occurs, List.isEmpty_iff, List.infix_nil]
  | cons c cs ih => rw [occurs, Bool.or_eq_true, List.isPrefixOf_iff_prefix, ih, List.infix_cons_iff]

/-- A text without ids stays, and nothing is reported. -/
theorem quote_of_none {text : String} (h : ∀ after, after <:+ text.toList → id? after = none) :
    quote text = Logged.pure text := by
  have hnone : ∀ cs : List Char, (∀ after, after <:+ cs → id? after = none) →
      (segments cs).filterMap Segment.digits? = [] := by
    intro cs hcs
    induction cs with
    | nil =>
      rw [segments]
      rfl
    | cons c cs ih =>
      rw [segments_literal (hcs _ List.suffix_rfl)]
      exact ih fun after hafter => hcs after (hafter.trans (List.suffix_cons ..))
  unfold quote
  dsimp only
  rw [hnone _ h]
  cases occurs "android".toList text.toList <;> rfl

theorem quote_of_not_mentioned {text : String} (h : ¬ "android".toList <:+: text.toList) :
    quote text = Logged.pure text := by
  unfold quote
  dsimp only
  rw [Bool.eq_false_iff.mpr (mt occurs_iff_isInfix.mp h)]

/-- What follows the digits of an id that is more than a number. -/
def GoesOn (letter : Char → Prop) (rest : List Char) : Prop :=
  ∃ c, rest.head? = some c ∧ (letter c ∨ c ∈ ['.', '-', '_', ':'])

/-- **Every id is quoted, and only ids are.** A text that does not mention android stays as it is.
Any other becomes the text with all its ids between quotes, whatever follows their digits. So just
the ids are quoted that are whole numbers if and only if no id in the text goes on behind its
digits, with a letter, whatever counts as one, or with a point, a dash, an underscore or a colon.
Quoting a second time changes nothing. -/
theorem quote_ids (letter : Char → Prop) (text : String) :
    let done := (quote text).value
    (¬ "android".toList <:+: text.toList → quote text = Logged.pure text) ∧
      ("android".toList <:+: text.toList →
        (∀ cs, Quotes (fun _ => True) text.toList cs ↔ cs = done.toList) ∧
        (Quotes (fun rest => ¬ GoesOn letter rest) text.toList done.toList ↔
          ∀ after blanks ds rest, after <:+ text.toList → IsId after blanks ds rest →
            ¬ GoesOn letter rest)) ∧
      quote done = Logged.pure done := by
  intro done
  by_cases hmentioned : "android".toList <:+: text.toList
  · have hdone : done.toList = quoted text.toList := by
      rw [show done = _ from quote_value (occurs_iff_isInfix.mpr hmentioned), String.toList_ofList]
    have hall : Quotes (fun _ => True) text.toList done.toList := hdone ▸ quotes_quoted text.toList
    have hnone : ∀ after, after <:+ done.toList → id? after = none := fun after hafter =>
      id?_quoted (hdone ▸ hafter)
    refine ⟨absurd hmentioned, fun _ => ⟨fun cs => ⟨hall.unique, ?_⟩, ?_, fun hwhole => ?_⟩,
      quote_of_none hnone⟩
    · rintro rfl
      exact hall
    · intro h after blanks ds rest hafter hid
      exact h.chosen hnone hafter hid
    · exact hall.congr fun after blanks ds rest hafter hid =>
        iff_of_true trivial (hwhole after blanks ds rest hafter hid)
  · have hdone : quote text = Logged.pure text := quote_of_not_mentioned hmentioned
    have hsame : done = text := congrArg Logged.value hdone
    refine ⟨fun _ => hdone, fun h => absurd h hmentioned, ?_⟩
    rw [hsame]
    exact hdone

/-- The first number of an address is cut off from the rest of it, which is not what quoting the
whole numbers among the ids would do. -/
theorem quote_ids_address :
    let text := "android:\n  deviceId: 192.168.0.7:5555\ntasks: []\n"
    (quote text).value = "android:\n  deviceId: '192'.168.0.7:5555\ntasks: []\n" ∧
      ¬ Quotes (fun rest => ¬ GoesOn (fun c => c.isAlpha = true) rest) text.toList
        (quote text).value.toList := by
  intro text
  have hmentioned : "android".toList <:+: text.toList := occurs_iff_isInfix.mp (by decide +kernel)
  have hid : IsId "deviceId: 192.168.0.7:5555\ntasks: []\n".toList [' '] "192".toList
      ".168.0.7:5555\ntasks: []\n".toList :=
    ⟨by decide, List.all_eq_true.mp rfl, by decide, List.all_eq_true.mp (by decide),
      fun c hc => by cases hc; rfl⟩
  obtain ⟨-, hquotes, -⟩ := quote_ids (fun c => c.isAlpha = true) text
  refine ⟨by decide +kernel, fun h => ?_⟩
  exact (hquotes hmentioned).2.mp h _ _ _ _ ⟨"android:\n  ".toList, by decide⟩ hid
    ⟨'.', rfl, .inr (by decide)⟩

end Runbook.DeviceId
