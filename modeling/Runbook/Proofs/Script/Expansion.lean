/-
What expanding makes of a text.

A text can be cut in one way only at its leftmost placeholders, with the literal parts before,
between and behind them (`exists_split`, `Split.unique`). The scan takes the placeholders in these
places, and every other character is literal (`Split.segments_eq`). So each placeholder is replaced
where it stands, and nothing else is read: neither the literal parts, whatever dollar signs and
braces are in them, nor the values that are put in (`expand_exact`).
-/
import Mathlib.Data.List.Basic
import Mathlib.Data.List.Infix
import Runbook.Proofs.Text
import Runbook.Script.Placeholder

namespace Runbook.Placeholder

/-! ## Placeholders in a text -/

/-- What may stand between the braces: at least one character, and no closing brace. -/
def IsContent (content : List Char) : Prop := content ≠ [] ∧ '\x7d' ∉ content

/-- A placeholder as it is written. -/
def spelled (content : List Char) : List Char := '$' :: '\x7b' :: (content ++ ['\x7d'])

/-- A placeholder stands at the start of the characters. -/
def Begins (cs : List Char) : Prop :=
  ∃ content rest, IsContent content ∧ cs = spelled content ++ rest

/-- The characters cut at the leftmost placeholders: each of these with the literal part before it,
and the literal part behind the last one. -/
inductive Split : List Char → List (List Char × List Char) → List Char → Prop
  | last {cs : List Char} (hnone : ∀ after, after <:+ cs → ¬ Begins after) : Split cs [] cs
  | part {cs before content rest last : List Char} {parts : List (List Char × List Char)}
      (hcs : cs = before ++ (spelled content ++ rest)) (hcontent : IsContent content)
      (hleftmost : ∀ after, after <:+ cs → Begins after → after <:+ spelled content ++ rest)
      (hrest : Split rest parts last) : Split cs ((before, content) :: parts) last

variable {cs before content content' rest rest' last last' : List Char} {c : Char}
  {parts parts' : List (List Char × List Char)} {env : Environment}

theorem begins_spelled (h : IsContent content) (rest : List Char) :
    Begins (spelled content ++ rest) := ⟨content, rest, h, rfl⟩

theorem not_begins_nil : ¬ Begins [] := by
  rintro ⟨content, rest, -, hnil⟩
  cases hnil

/-- A placeholder ends with the first closing brace. -/
theorem content?_eq_some_iff : content? cs = some (content, rest) ↔
    IsContent content ∧ cs = content ++ '\x7d' :: rest := by
  constructor
  · intro h
    have hcs := List.takeWhile_append_dropWhile (p := (· != '\x7d')) (l := cs)
    unfold content? at h
    split at h
    · next c before d after htake hdrop =>
      cases h
      have hd : d = '\x7d' := by
        have hne : cs.dropWhile (· != '\x7d') ≠ [] := by rw [hdrop]; nofun
        simpa [hdrop] using List.head_dropWhile_not (· != '\x7d') hne
      refine ⟨⟨nofun, fun hmem => ?_⟩, by rw [← hcs, htake, hdrop, hd]⟩
      rw [← htake] at hmem
      simpa using List.all_eq_true.mp List.all_takeWhile _ hmem
    · cases h
  · rintro ⟨⟨hne, hmem⟩, rfl⟩
    have hall : ∀ c ∈ content, (c != '\x7d') = true := fun c hc => by
      simpa using fun heq : c = '\x7d' => hmem (heq ▸ hc)
    have hbrace : ∀ c, ('\x7d' :: rest).head? = some c → (c != '\x7d') = false := by simp
    obtain ⟨htake, hdrop⟩ := Text.takeWhile_run hall hbrace
    unfold content?
    rw [htake, hdrop]
    cases content with
    | nil => exact absurd rfl hne
    | cons c content => rfl

theorem spelled_append (content rest : List Char) :
    spelled content ++ rest = '$' :: '\x7b' :: (content ++ '\x7d' :: rest) := by
  simp [spelled]

theorem spelled_inj (h : IsContent content) (h' : IsContent content')
    (heq : spelled content ++ rest = spelled content' ++ rest') :
    content = content' ∧ rest = rest' := by
  simp only [spelled_append, List.cons.injEq, true_and] at heq
  have hread := content?_eq_some_iff.mpr ⟨h', heq⟩
  rw [content?_eq_some_iff.mpr ⟨h, rfl⟩] at hread
  simpa using hread

/-! ## One way to cut a text -/

/-- A character at which no placeholder begins goes to the literal part behind it. -/
theorem Split.cons (hc : ¬ Begins (c :: cs)) (h : Split cs parts last) :
    ∃ parts' last', Split (c :: cs) parts' last' := by
  cases h with
  | last hnone =>
    refine ⟨_, _, .last fun after hafter => ?_⟩
    rcases List.suffix_cons_iff.mp hafter with rfl | hafter
    · exact hc
    · exact hnone after hafter
  | @part _ before _ _ _ _ hcs hcontent hleftmost hrest =>
    have hcs' : c :: cs = (c :: before) ++ (spelled _ ++ _) := congrArg (c :: ·) hcs
    refine ⟨_, _, .part hcs' hcontent ?_ hrest⟩
    intro after hafter hbegins
    rcases List.suffix_cons_iff.mp hafter with rfl | hafter
    · exact absurd hbegins hc
    · exact hleftmost after hafter hbegins

theorem exists_split (cs : List Char) : ∃ parts last, Split cs parts last := by
  induction hlength : cs.length using Nat.strong_induction_on generalizing cs with
  | _ n ih =>
    by_cases hbegins : Begins cs
    · obtain ⟨content, rest, hcontent, rfl⟩ := hbegins
      have hshorter : rest.length < n := by
        simp only [← hlength, spelled, List.length_cons, List.length_append]
        omega
      obtain ⟨parts, last, hrest⟩ := ih _ hshorter rest rfl
      exact ⟨_, _, .part (List.nil_append _).symm hcontent (fun _ hafter _ => hafter) hrest⟩
    · cases cs with
      | nil => exact ⟨_, _, .last fun after hafter => List.suffix_nil.mp hafter ▸ not_begins_nil⟩
      | cons c cs =>
        obtain ⟨parts, last, h⟩ := ih cs.length (by simp [← hlength]) cs rfl
        exact h.cons hbegins

theorem Split.unique (h : Split cs parts last) (h' : Split cs parts' last') :
    parts' = parts ∧ last' = last := by
  induction h generalizing parts' last' with
  | last hnone =>
    cases h' with
    | last => exact ⟨rfl, rfl⟩
    | part hcs hcontent =>
      exact absurd (begins_spelled hcontent _) (hnone _ (hcs ▸ List.suffix_append ..))
  | part hcs hcontent hleftmost hrest ih =>
    cases h' with
    | last hnone =>
      exact absurd (begins_spelled hcontent _) (hnone _ (hcs ▸ List.suffix_append ..))
    | part hcs' hcontent' hleftmost' hrest' =>
      -- neither placeholder begins before the other
      have hover := hleftmost _ (hcs' ▸ List.suffix_append ..) (begins_spelled hcontent' _)
      have hover' := hleftmost' _ (hcs ▸ List.suffix_append ..) (begins_spelled hcontent _)
      have hsame := hover.eq_of_length_le hover'.length_le
      obtain ⟨rfl, rfl⟩ := spelled_inj hcontent' hcontent hsame
      obtain rfl := List.append_cancel_right (hcs'.symm.trans hcs)
      obtain ⟨rfl, rfl⟩ := ih hrest'
      exact ⟨rfl, rfl⟩

/-- Nothing of a text is lost. -/
theorem Split.join (h : Split cs parts last) :
    (parts.flatMap fun part => part.1 ++ spelled part.2) ++ last = cs := by
  induction h with
  | last => rfl
  | part hcs _ _ _ ih =>
    rw [hcs, List.flatMap_cons, List.append_assoc, List.append_assoc, ih]

/-! ## The scan -/

theorem segments_spelled (h : IsContent content) (rest : List Char) :
    segments (spelled content ++ rest) = .placeholder content :: segments rest := by
  have hread : content? (content ++ '\x7d' :: rest) = some (content, rest) :=
    content?_eq_some_iff.mpr ⟨h, rfl⟩
  rw [spelled_append, segments]
  split
  · next hsome =>
    cases hsome.symm.trans hread
    rfl
  · next hnone => cases hnone.symm.trans hread

theorem segments_of_not_begins (h : ¬ Begins (c :: cs)) :
    segments (c :: cs) = .literal c :: segments cs := by
  rw [segments.eq_def]
  split
  · next heq => cases heq
  · next cs' heq =>
    obtain ⟨rfl, rfl⟩ := List.cons.inj heq
    split
    · next content rest hsome =>
      obtain ⟨hcontent, rfl⟩ := content?_eq_some_iff.mp hsome
      exact absurd ⟨content, rest, hcontent, (spelled_append content rest).symm⟩ h
    · rfl
  · next heq =>
    obtain ⟨rfl, rfl⟩ := List.cons.inj heq
    rfl

/-- Before the first placeholder all is literal. -/
theorem segments_before
    (h : ∀ after, after <:+ before ++ rest → Begins after → after <:+ rest) :
    segments (before ++ rest) = before.map .literal ++ segments rest := by
  induction before with
  | nil => rfl
  | cons c before ih =>
    have hc : ¬ Begins (c :: (before ++ rest)) := fun hbegins => by
      have hlength := (h _ List.suffix_rfl hbegins).length_le
      simp only [List.length_cons, List.length_append] at hlength
      omega
    rw [List.cons_append, segments_of_not_begins hc,
      ih fun after hafter => h after (hafter.trans (List.suffix_cons ..))]
    rfl

/-- The segments of characters that are cut into parts. -/
def segmentsOf : List (List Char × List Char) → List Char → List Segment
  | [], last => last.map .literal
  | (before, content) :: parts, last =>
    before.map .literal ++ .placeholder content :: segmentsOf parts last

/-- The scan cuts a text where its leftmost placeholders are. -/
theorem Split.segments_eq (h : Split cs parts last) : segments cs = segmentsOf parts last := by
  induction h with
  | @last cs hnone =>
    have hall : segments (cs ++ []) = cs.map .literal ++ segments [] :=
      segments_before fun after hafter hbegins =>
        absurd hbegins (hnone after (by simpa using hafter))
    simpa [segments, segmentsOf] using hall
  | part hcs hcontent hleftmost _ ih =>
    subst hcs
    rw [segments_before hleftmost, segments_spelled hcontent, ih, segmentsOf]

/-! ## Values -/

/-- The characters that segments become. -/
def expanded (env : Environment) (segs : List Segment) : Except Error (List Char) :=
  (segs.mapM (expandSegment env)).map List.flatten

theorem expand_eq (env : Environment) (text : String) :
    expand env text = (expanded env (segments text.toList)).map String.ofList := by
  unfold expand expanded
  cases (segments text.toList).mapM (expandSegment env) <;> rfl

theorem expanded_cons (env : Environment) (s : Segment) (segs : List Segment) :
    expanded env (s :: segs) = (do
      let cs ← expandSegment env s
      (expanded env segs).map (cs ++ ·)) := by
  simp only [expanded, List.mapM_cons]
  cases expandSegment env s with
  | error e => rfl
  | ok cs => cases segs.mapM (expandSegment env) <;> rfl

theorem expanded_literals (env : Environment) (cs : List Char) (segs : List Segment) :
    expanded env (cs.map .literal ++ segs) = (expanded env segs).map (cs ++ ·) := by
  induction cs with
  | nil => cases h : expanded env segs <;> simp [h, Except.map]
  | cons c cs ih =>
    rw [List.map_cons, List.cons_append, expanded_cons, ih]
    cases expanded env segs <;> rfl

theorem expanded_part (env : Environment) (before content : List Char) (segs : List Segment) :
    expanded env (before.map .literal ++ .placeholder content :: segs) =
      match env (variableName content) with
      | some value => (expanded env segs).map (before ++ value.toList ++ ·)
      | none => .error (.undefinedVariable (variableName content)) := by
  rw [expanded_literals, expanded_cons, expandSegment]
  cases env (variableName content) with
  | none => rfl
  | some value => cases expanded env segs <;> simp [Except.map, bind, Except.bind]

/-- Each placeholder becomes the value of its variable. -/
theorem expanded_ok (value : String → String)
    (h : ∀ part ∈ parts, env (variableName part.2) = some (value (variableName part.2))) :
    expanded env (segmentsOf parts last) = .ok
      ((parts.flatMap fun part => part.1 ++ (value (variableName part.2)).toList) ++ last) := by
  induction parts with
  | nil =>
    have hlast := expanded_literals env last []
    rw [List.append_nil] at hlast
    rw [segmentsOf, hlast]
    simp [expanded, Except.map, pure, Except.pure]
  | cons part parts ih =>
    simp only [List.mem_cons, forall_eq_or_imp] at h
    rw [segmentsOf, expanded_part, h.1, ih h.2, List.flatMap_cons, List.append_assoc]
    rfl

/-- The first variable that is missing is the one that is reported. -/
theorem expanded_error {part : List Char × List Char} {before after : List (List Char × List Char)}
    (h : ∀ p ∈ before, (env (variableName p.2)).isSome)
    (hpart : env (variableName part.2) = none) :
    expanded env (segmentsOf (before ++ part :: after) last) =
      .error (.undefinedVariable (variableName part.2)) := by
  induction before with
  | nil => rw [List.nil_append, segmentsOf, expanded_part, hpart]
  | cons p before ih =>
    simp only [List.mem_cons, forall_eq_or_imp] at h
    obtain ⟨value, hvalue⟩ := Option.isSome_iff_exists.mp h.1
    rw [List.cons_append, segmentsOf, expanded_part, hvalue, ih h.2]
    rfl

/-- The variable is called as the content is, without the blanks at either end. -/
theorem variableName_eq_iff {name : String} :
    variableName content = name ↔ Text.IsTrimmed content name.toList := by
  rw [← Text.trim_eq_iff, variableName, ← String.toList_inj, String.toList_ofList]

/-- **Expanding is exact**, for every text and every environment. The text can be cut at its
leftmost placeholders in one way. Each of them names the variable that is called as its content is,
without the blanks at either end. If all their variables are defined, the text becomes the literal
parts as they are, with the values as they are between them. Else the first variable in the text
that is not defined is reported. A text without placeholders stays as it is. -/
theorem expand_exact (text : String) : ∃ parts last, Split text.toList parts last ∧
    (∀ parts' last', Split text.toList parts' last' → parts' = parts ∧ last' = last) ∧
    text.toList = (parts.flatMap fun part => part.1 ++ spelled part.2) ++ last ∧
    (∀ part ∈ parts, ∀ name : String,
      variableName part.2 = name ↔ Text.IsTrimmed part.2 name.toList) ∧
    ∀ env : Environment,
      (∀ value : String → String,
        (∀ part ∈ parts, env (variableName part.2) = some (value (variableName part.2))) →
          expand env text = .ok (String.ofList
            ((parts.flatMap fun part => part.1 ++ (value (variableName part.2)).toList) ++
              last))) ∧
      (∀ before part after, parts = before ++ part :: after →
        (∀ p ∈ before, (env (variableName p.2)).isSome) → env (variableName part.2) = none →
          expand env text = .error (.undefinedVariable (variableName part.2))) ∧
      (parts = [] → expand env text = .ok text) := by
  obtain ⟨parts, last, h⟩ := exists_split text.toList
  have hok : ∀ (env : Environment) (value : String → String),
      (∀ part ∈ parts, env (variableName part.2) = some (value (variableName part.2))) →
        expand env text = .ok (String.ofList
          ((parts.flatMap fun part => part.1 ++ (value (variableName part.2)).toList) ++
            last)) := by
    intro env value hvalues
    rw [expand_eq, h.segments_eq, expanded_ok value hvalues]
    rfl
  have hnames : ∀ part ∈ parts, ∀ name : String,
      variableName part.2 = name ↔ Text.IsTrimmed part.2 name.toList :=
    fun _ _ _ => variableName_eq_iff
  refine ⟨parts, last, h, fun _ _ h' => h.unique h', h.join.symm, hnames, fun env =>
    ⟨hok env, ?_, ?_⟩⟩
  · rintro before part after rfl hbefore hpart
    rw [expand_eq, h.segments_eq, expanded_error hbefore hpart]
    rfl
  · rintro rfl
    have hlast : last = text.toList := h.join
    rw [hok env id (by simp), hlast]
    simp

/-- A value is not searched for placeholders again. -/
example : expand (fun name => if name = "X" then some "$\x7bX\x7d" else none)
    "a$\x7b X \x7d$\x7b\x7d" = .ok "a$\x7bX\x7d$\x7b\x7d" := by cbv

end Runbook.Placeholder
