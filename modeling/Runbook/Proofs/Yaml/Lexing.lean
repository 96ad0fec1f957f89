/-
The lexer on a text whose start is known.

Such a text can be followed token by token as far as it is known: over a key (`leads_key`), over a
quoted scalar (`leads_quoted`) and over the start of a flow mapping (`leads_brace`). As every round
takes a token, what comes of the rest does not depend on how many rounds that took (`Leads.run?`).
-/
import Mathlib.Data.List.InsertIdx
import Runbook.Proofs.Yaml.Scan

namespace Runbook.Yaml.Lexer

/-! ## Steps -/

/-- No token read so far may turn out to be a key. -/
def Settled (s : Lexer) : Prop := ∃ outer, s.candidates = none :: outer ∧ ∀ c ∈ outer, c = none

theorem Settled.all_none {s : Lexer} (h : s.Settled) : ∀ c ∈ s.candidates, c = none := by
  obtain ⟨outer, houter, hnone⟩ := h
  rw [houter]
  rintro c (_ | ⟨_, hc⟩)
  · rfl
  · exact hnone c hc

theorem expire_of_none {g : Glyph} {cs : List (Option Candidate)} (h : ∀ c ∈ cs, c = none) :
    cs.mapM (expire? g) = some cs := by
  induction cs with
  | nil => rfl
  | cons c cs ih =>
    rw [List.mapM_cons, h c (by simp), ih fun c' hc' => h c' (by simp [hc'])]
    rfl

theorem unroll_of_le {s : Lexer} {column : Nat} (h : ∀ c ∈ s.indents, c ≤ column) :
    s.unroll column = s := by
  have hclosed : s.indents.takeWhile (fun c => decide (column < c)) = [] := by
    cases hindents : s.indents with
    | nil => rfl
    | cons c cs =>
      have hc : ¬ column < c := Nat.not_lt.mpr (h c (by simp [hindents]))
      rw [List.takeWhile_cons, decide_eq_false hc]
      rfl
  unfold unroll
  split
  · rfl
  · simp only [hclosed, List.length_nil, List.drop_zero, Array.replicate_zero, Array.append_empty]

/-- One state comes after another, some rounds later. -/
def Leads (s s' : Lexer) : Prop := ∃ rounds, ∀ fuel, run? (fuel + rounds) s = run? fuel s'

theorem Leads.trans {s s' s'' : Lexer} (h : Leads s s') (h' : Leads s' s'') : Leads s s'' := by
  obtain ⟨m, hm⟩ := h
  obtain ⟨n, hn⟩ := h'
  exact ⟨n + m, fun fuel => by rw [← Nat.add_assoc, hm, hn]⟩

/-- Rounds to spare change nothing. -/
theorem run?_add {fuel : Nat} {s : Lexer} {ts : List Token} (h : run? fuel s = some ts)
    (spare : Nat) : run? (fuel + spare) s = some ts := by
  induction fuel generalizing s with
  | zero => cases h
  | succ fuel ih =>
    rw [Nat.succ_add]
    unfold run? at h ⊢
    generalize skipGap s.inFlow false s.keyAllowed s.rest = gap at h ⊢
    obtain ⟨keyAllowed, rest⟩ := gap
    cases rest with
    | nil => exact h
    | cons g more =>
      obtain ⟨candidates, hcandidates, h⟩ := Option.bind_eq_some_iff.mp h
      obtain ⟨next, hnext, h⟩ := Option.bind_eq_some_iff.mp h
      exact Option.bind_eq_some_iff.mpr ⟨candidates, hcandidates,
        Option.bind_eq_some_iff.mpr ⟨next, hnext, ih h⟩⟩

/-- What comes of a state is what comes of the one it leads to. -/
theorem Leads.run? {s s' : Lexer} (h : Leads s s') {fuel : Nat} {ts : List Token}
    (hs : run? fuel s = some ts) : Lexer.run? fuel s' = some ts := by
  obtain ⟨rounds, hrounds⟩ := h
  rw [← hrounds]
  exact run?_add hs rounds

/-- One round of the lexer, outside of what it would close. -/
theorem Leads.step {s s' : Lexer} {g : Glyph} {more : List Glyph} {keyAllowed : Bool}
    {candidates : List (Option Candidate)}
    (hgap : skipGap s.inFlow false s.keyAllowed s.rest = (keyAllowed, g :: more))
    (hcandidates : s.candidates.mapM (expire? g) = some candidates)
    (hindents : ∀ c ∈ s.indents, c ≤ g.column)
    (htoken : { s with keyAllowed, rest := g :: more, candidates }.token? g more = some s') :
    Leads s s' := by
  refine ⟨1, fun fuel => ?_⟩
  have hunroll : ({ s with keyAllowed, rest := g :: more, candidates } : Lexer).unroll g.column =
      { s with keyAllowed, rest := g :: more, candidates } := unroll_of_le hindents
  rw [Lexer.run?, hgap]
  simp only [hcandidates, Option.bind_eq_bind, Option.bind_some]
  rw [hunroll, htoken, Option.bind_some]

/-! ## Keys -/

theorem insertIdx_length_append {α : Type} (xs ys : List α) (a : α) :
    (xs ++ ys).insertIdx xs.length a = xs ++ a :: ys := by
  induction xs with
  | nil => rfl
  | cons x xs ih =>
    rw [List.cons_append, List.length_cons, List.insertIdx_succ_cons, ih]
    rfl

/-- What is put in front of the tokens that were pushed last. -/
theorem insert_append {α : Type} (ts us : Array α) (a : α) :
    (ts ++ us).insertIdxIfInBounds ts.size a = ts.push a ++ us := by
  have hle : ts.size ≤ (ts ++ us).size := by simp
  apply Array.ext'
  rw [Array.insertIdxIfInBounds, dif_pos hle, Array.toList_insertIdx, Array.toList_append,
    ← Array.length_toList, insertIdx_length_append]
  simp

/-- The start of a collection goes in front of the tokens that were pushed last. -/
theorem roll_push_push (s : Lexer) (a b t : Token) (column : Nat) :
    ((s.push a).push b).roll column s.tokens.size t =
      ((s.roll column s.tokens.size t).push a).push b := by
  have hinsert : ((s.tokens.push a).push b).insertIdxIfInBounds s.tokens.size t =
      ((s.tokens.insertIdxIfInBounds s.tokens.size t).push a).push b := by
    have hpush : ∀ ts : Array Token, (ts.push a).push b = ts ++ #[a, b] := fun ts =>
      Array.ext' (by simp)
    have hend := insert_append s.tokens #[] t
    rw [Array.append_empty, Array.append_empty] at hend
    rw [hpush, insert_append, hend, hpush]
  by_cases hopens : (!s.inFlow && decide (s.leastIndent ≤ column)) = true
  · have hpushed : ((s.push a).push b).roll column s.tokens.size t = { (s.push a).push b with
        indents := column :: s.indents
        tokens := ((s.tokens.push a).push b).insertIdxIfInBounds s.tokens.size t } :=
      if_pos hopens
    rw [hpushed, hinsert, roll, if_pos hopens]
    rfl
  · have hpushed : ((s.push a).push b).roll column s.tokens.size t = (s.push a).push b :=
      if_neg hopens
    rw [hpushed, roll, if_neg hopens]

/-- Whether a collection starts does not depend on what comes next. -/
theorem roll_with (s : Lexer) (rest : List Glyph) (keyAllowed : Bool) (column position : Nat)
    (t : Token) : ({ s with rest, keyAllowed } : Lexer).roll column position t =
      { s.roll column position t with rest, keyAllowed } := by
  by_cases hopens : (!s.inFlow && decide (s.leastIndent ≤ column)) = true
  · have hwith : ({ s with rest, keyAllowed } : Lexer).roll column position t = { s with
        rest, keyAllowed, indents := column :: s.indents
        tokens := s.tokens.insertIdxIfInBounds position t } := if_pos hopens
    rw [hwith, roll, if_pos hopens]
  · have hwith : ({ s with rest, keyAllowed } : Lexer).roll column position t =
        { s with rest, keyAllowed } := if_neg hopens
    rw [hwith, roll, if_neg hopens]

/-- The lexer after a key and its colon. -/
def afterKey (s : Lexer) (column : Nat) (name : String) (rest : List Glyph) : Lexer :=
  let s := ((s.roll column s.tokens.size .blockMappingStart).push .key).push (.scalar .plain name)
  { s.push .value with rest, keyAllowed := false }

theorem startsMarker_of_ne {g : Glyph} {c : Char} (h : g.char ≠ c) (rest : List Glyph) :
    startsMarker c (g :: rest) = false := by
  unfold startsMarker
  split
  · next heq =>
    cases heq
    simp [h]
  · rfl

section

variable {s : Lexer} {g : Glyph} {rest : List Glyph}

theorem token?_letter (h : g.char.isAlpha = true) : s.token? g rest = s.plain? g := by
  have hne : ∀ d : Char, d.isAlpha = false → g.char ≠ d := fun d hd => Letter.ne h hd
  have hdash := startsMarker_of_ne (hne '-' rfl) rest
  have hdot := startsMarker_of_ne (hne '.' rfl) rest
  have hstarts : startsPlain s.inFlow g.char (peek 0 rest) = true := by
    have hindicator : isIndicator g.char = false := by
      rw [isIndicator, Bool.eq_false_iff, ne_eq, List.contains_iff_mem]
      intro hmem
      have hnone : ['-', '?', ':', ',', '[', ']', '\x7b', '\x7d', '#', '&', '*', '!', '|', '>',
          '\'', '"', '%', '@', '\x60'].all (fun d => !d.isAlpha) = true := rfl
      have hletter := List.all_eq_true.mp hnone _ hmem
      rw [h] at hletter
      cases hletter
    simp only [startsPlain, hindicator, Letter.isBlank h, Bool.not_false, Bool.and_self,
      Bool.true_or]
  unfold token?
  simp only [hne '%' rfl, hne '[' rfl, hne ']' rfl, hne '\x7b' rfl, hne '\x7d' rfl, hne ',' rfl,
    hne '-' rfl, hne '?' rfl, hne ':' rfl, hne '*' rfl, hne '&' rfl, hne '!' rfl, hne '|' rfl,
    hne '>' rfl, hne '\'' rfl, hne '"' rfl, hdash, hdot, hstarts, and_false, false_and,
    Bool.false_eq_true, if_false, if_true]

theorem token?_colon (hg : g.char = ':') (hnext : isBlankOrEnd (peek 0 rest) = true) :
    s.token? g rest = s.value? g rest := by
  have hdash : startsMarker '-' (g :: rest) = false := startsMarker_of_ne (by simp [hg]) rest
  have hdot : startsMarker '.' (g :: rest) = false := startsMarker_of_ne (by simp [hg]) rest
  unfold token?
  simp only [hg, hdash, hdot, hnext, Char.reduceEq, and_false, false_and, true_and, Bool.or_true,
    Bool.false_eq_true, if_false, if_true]

theorem token?_quote (hg : g.char = '\'') : s.token? g rest = s.content? g
    ((QuotedScalar.scan? true .word [] rest).map fun (text, rest) =>
      (.scalar .quoted text, rest)) := by
  have hdash : startsMarker '-' (g :: rest) = false := startsMarker_of_ne (by simp [hg]) rest
  have hdot : startsMarker '.' (g :: rest) = false := startsMarker_of_ne (by simp [hg]) rest
  unfold token?
  simp only [hg, hdash, hdot, Char.reduceEq, and_false, false_and, Bool.false_eq_true, if_false,
    if_true]

theorem token?_brace (hg : g.char = '\x7b') :
    s.token? g rest = s.flowStart? g rest .flowMappingStart := by
  have hdash : startsMarker '-' (g :: rest) = false := startsMarker_of_ne (by simp [hg]) rest
  have hdot : startsMarker '.' (g :: rest) = false := startsMarker_of_ne (by simp [hg]) rest
  unfold token?
  simp only [hg, hdash, hdot, Char.reduceEq, and_false, Bool.false_eq_true, if_false, if_true]

end

/-- A colon after what may be a key: the key goes in front of it. -/
theorem value?_candidate (s : Lexer) (t : Token) {c : Candidate} {outer : List (Option Candidate)}
    (houter : s.candidates = none :: outer) (hposition : c.position = s.tokens.size)
    (g : Glyph) (glyphs rest : List Glyph) (keyAllowed : Bool) :
    ({ s.push t with rest := glyphs, candidates := some c :: outer, keyAllowed } : Lexer).value?
      g rest = some {
        (((s.roll c.column s.tokens.size .blockMappingStart).push .key).push t).push .value with
        rest, keyAllowed := false } := by
  have hinsert : (s.tokens.push t).insertIdxIfInBounds s.tokens.size .key =
      (s.tokens.push .key).push t := by
    simpa using insert_append s.tokens #[t] .key
  have hkeyed : ({ s.push t with
        rest := glyphs, tokens := (s.push t).tokens.insertIdxIfInBounds c.position .key
        candidates := none :: outer, keyAllowed } : Lexer) =
      (({ s with rest := glyphs, keyAllowed } : Lexer).push .key).push t := by
    rw [hposition, ← houter]
    exact congrArg (fun ts => ({ s with rest := glyphs, tokens := ts, keyAllowed } : Lexer)) hinsert
  have hroll := roll_push_push { s with rest := glyphs, keyAllowed } .key t .blockMappingStart
    c.column
  simp only [value?]
  rw [hkeyed, hposition, hroll, roll_with]
  rfl

/-- Whether a character can begin a token: blanks, breaks and comments are only gaps. -/
def isSolid (c : Char) : Bool := !(isBlank c || isBreak c || c == byteOrderMark || c == '#')

theorem isSolid_letter {c : Char} (h : c.isAlpha = true) : isSolid c = true := by
  have hmark : c ≠ byteOrderMark := Letter.ne h (by decide)
  simp [isSolid, Letter.isBlank h, isBreak_of_keepsLine (Letter.keepsLine h), hmark,
    Letter.ne h (d := '#') rfl]

theorem skipGap_solid {g : Glyph} (h : isSolid g.char = true) (inFlow keyAllowed : Bool)
    (rest : List Glyph) :
    skipGap inFlow false keyAllowed (g :: rest) = (keyAllowed, g :: rest) := by
  simp only [isSolid, isBlank, Bool.not_eq_true', Bool.or_eq_false_iff] at h
  obtain ⟨⟨⟨⟨hspace, htab⟩, hbreak⟩, hmark⟩, hcomment⟩ := h
  rw [skipGap]
  simp only [hspace, htab, hbreak, hmark, hcomment, Bool.false_and, Bool.or_self,
    Bool.false_eq_true, if_false]

/-- Where a key is allowed, a word before a colon is read as one: first as a scalar, and at the
colon the key is put in front of it. -/
theorem leads_key {s : Lexer} {word rest : List Char} {c : Char} {line column index : Nat}
    (hgap : skipGap s.inFlow false s.keyAllowed s.rest =
      (true, place (word ++ ':' :: c :: rest) line column index))
    (hsettled : s.Settled) (hindents : ∀ i ∈ s.indents, i ≤ column) (hword : IsWord word)
    (hc : isBlankOrEnd (some c) = true) : Leads s (s.afterKey column (String.ofList word)
      (place (c :: rest) line (column + word.length + 1) (index + octets word + 1))) := by
  obtain ⟨glyphs, tokens, indents, candidates, keyAllowed⟩ := s
  obtain ⟨outer, houter, hnone⟩ := hsettled
  obtain rfl : candidates = none :: outer := houter
  have hafter := isBlankOrEnd_place hc rest line (column + word.length + 1)
    (index + octets word + 1)
  have hscan := fun inFlow indent =>
    PlainScalar.scan?_key hword.letters hc inFlow indent rest line column index
  generalize place (c :: rest) line (column + word.length + 1) (index + octets word + 1) =
    after at hafter hscan ⊢
  obtain ⟨g, more, hplace, hletter, rfl, rfl, rfl⟩ :=
    place_word hword (':' :: c :: rest) line column index
  rw [hplace] at hgap
  simp only [hplace] at hscan
  let s : Lexer := ⟨glyphs, tokens, indents, none :: outer, keyAllowed⟩
  let candidate : Candidate := {
    required := !s.inFlow && s.leastIndent == g.column + 1
    position := tokens.size, line := g.line, column := g.column, index := g.index }
  let atColon : Lexer := {
    rest := ⟨':', g.line, g.column + word.length, g.index + octets word⟩ :: after
    tokens := tokens.push (.scalar .plain (String.ofList word)), indents
    candidates := some candidate :: outer, keyAllowed := false }
  -- The word is read as a scalar, and kept as a candidate because a key is allowed there.
  have hfirst : Leads s atColon := by
    have hsettled : s.Settled := ⟨outer, rfl, hnone⟩
    refine .step hgap (expire_of_none hsettled.all_none) hindents ?_
    rw [token?_letter hletter]
    simp only [plain?, saveCandidate?, dropCandidate?, if_true, Option.bind_eq_bind,
      Option.bind_some, hscan]
    rfl
  -- The colon stands on the same line and near enough, so the candidate has not expired.
  have hsecond : Leads atColon (s.afterKey g.column (String.ofList word) after) := by
    have hkept : expire? ⟨':', g.line, g.column + word.length, g.index + octets word⟩
        (some candidate) = some (some candidate) := by
      have hsize := hword.size
      exact if_neg (by simp only [candidate]; omega)
    have hcandidates : (some candidate :: outer).mapM
        (expire? ⟨':', g.line, g.column + word.length, g.index + octets word⟩) =
          some (some candidate :: outer) := by
      rw [List.mapM_cons, hkept, expire_of_none hnone]
      rfl
    refine .step (skipGap_solid rfl _ _ _) hcandidates ?_ ?_
    · exact fun i hi => Nat.le_trans (hindents i hi) (Nat.le_add_right _ _)
    · rw [token?_colon rfl hafter]
      exact value?_candidate s _ rfl rfl _ _ _ _
  exact hfirst.trans hsecond

/-! ## Values -/

/-- Where no key is allowed, a quoted run is a scalar for good. -/
theorem leads_quoted {s : Lexer} {ds rest : List Char} {line column index : Nat}
    (hgap : skipGap s.inFlow false s.keyAllowed s.rest =
      (false, place ('\'' :: (ds ++ '\'' :: rest)) line column index))
    (hsettled : s.Settled) (hindents : ∀ i ∈ s.indents, i ≤ column)
    (hds : IsVerbatim ds) (hrest : rest.head? ≠ some '\'') :
    Leads s { s.push (.scalar .quoted (String.ofList ds)) with
      rest := place rest line (column + 1 + ds.length + 1) (index + 1 + octets ds + 1)
      keyAllowed := false } := by
  have hplace : place ('\'' :: (ds ++ '\'' :: rest)) line column index =
      ⟨'\'', line, column, index⟩ :: place (ds ++ '\'' :: rest) line (column + 1) (index + 1) :=
    place_cons rfl _ _ _ _
  have hscan := QuotedScalar.scan?_quoted hds hrest [] line (column + 1) (index + 1)
  rw [hplace] at hgap
  refine .step hgap (expire_of_none hsettled.all_none) hindents ?_
  rw [token?_quote rfl, hscan]
  rfl

/-- Where no key is allowed, a brace starts a mapping whose keys are allowed. -/
theorem leads_brace {s : Lexer} {rest : List Char} {line column index : Nat}
    (hgap : skipGap s.inFlow false s.keyAllowed s.rest =
      (false, place ('\x7b' :: rest) line column index))
    (hsettled : s.Settled) (hindents : ∀ i ∈ s.indents, i ≤ column) :
    Leads s { s.push .flowMappingStart with
      rest := place rest line (column + 1) (index + 1), candidates := none :: s.candidates
      keyAllowed := true } := by
  have hplace : place ('\x7b' :: rest) line column index =
      ⟨'\x7b', line, column, index⟩ :: place rest line (column + 1) (index + 1) :=
    place_cons rfl _ _ _ _
  rw [hplace] at hgap
  refine .step hgap (expire_of_none hsettled.all_none) hindents ?_
  rw [token?_brace rfl]
  rfl

/-! ## Gaps -/

section

variable {c : Char} {cs : List Char} {line column index : Nat}

theorem skipGap_place (hkeeps : keepsLine c = true) (hsolid : isSolid c = true)
    (inFlow keyAllowed : Bool) :
    skipGap inFlow false keyAllowed (place (c :: cs) line column index) =
      (keyAllowed, place (c :: cs) line column index) := by
  have hglyph : isSolid (Glyph.mk c line column index).char = true := hsolid
  rw [place_cons hkeeps, skipGap_solid hglyph]

/-- A word is no gap. -/
theorem skipGap_word {word : List Char} (h : IsWord word) (inFlow keyAllowed : Bool) :
    skipGap inFlow false keyAllowed (place (word ++ cs) line column index) =
      (keyAllowed, place (word ++ cs) line column index) := by
  obtain ⟨g, more, hplace, hletter, -⟩ := place_word h cs line column index
  rw [hplace, skipGap_solid (isSolid_letter hletter)]

theorem skipGap_spaces (n : Nat) (inFlow keyAllowed : Bool) :
    skipGap inFlow false keyAllowed (place (List.replicate n ' ' ++ cs) line column index) =
      skipGap inFlow false keyAllowed (place cs line (column + n) (index + n)) := by
  induction n generalizing column index with
  | zero => rfl
  | succ n ih =>
    have hspace : ∀ gs, skipGap inFlow false keyAllowed (⟨' ', line, column, index⟩ :: gs) =
        skipGap inFlow false keyAllowed gs := fun _ => rfl
    have hcolumn : column + 1 + n = column + (n + 1) := by omega
    have hindex : index + ' '.utf8Size + n = index + (n + 1) := by
      show index + 1 + n = index + (n + 1)
      omega
    rw [List.replicate_succ, List.cons_append, place_cons rfl, hspace, ih, hcolumn, hindex]

theorem skipGap_newline (inFlow keyAllowed : Bool) :
    skipGap inFlow false keyAllowed (place ('\n' :: cs) line column index) =
      skipGap inFlow false (keyAllowed || !inFlow) (place cs (line + 1) 0 (index + 1)) := by
  rw [place_newline, skipGap]
  rfl

end

end Runbook.Yaml.Lexer
