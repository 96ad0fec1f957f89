/-
What the lexer has read and will not change any more.

A token may still get others in front of it while a key before it is a candidate. Once none is,
everything read so far stays as it is: `Keeps` holds on through every operation, so through a
token (`Keeps.token`), and the tokens of the whole text begin with what is kept (`run?_keeps`).
-/
import Mathlib.Data.List.Infix
import Mathlib.Data.List.InsertIdx
import Runbook.Yaml.Lexer

namespace Runbook.Yaml.Lexer

/-- The tokens begin with some that nothing will be put in front of or between. -/
structure Keeps (front : List Token) (s : Lexer) : Prop where
  tokens : front <+: s.tokens.toList
  behind : ∀ c, some c ∈ s.candidates → front.length ≤ c.position

theorem prefix_insertIdx {front : List Token} {ts : Array Token} {position : Nat}
    (h : front <+: ts.toList) (hposition : front.length ≤ position) (t : Token) :
    front <+: (ts.insertIdxIfInBounds position t).toList := by
  unfold Array.insertIdxIfInBounds
  split
  · rw [Array.toList_insertIdx, List.prefix_iff_eq_take,
      List.take_insertIdx_eq_take_of_le _ _ _ _ hposition]
    exact List.prefix_iff_eq_take.mp h
  · exact h

namespace Keeps

variable {front : List Token} {s s' : Lexer}

theorem length_le (h : Keeps front s) : front.length ≤ s.tokens.size := by
  simpa using h.tokens.length_le

theorem push (h : Keeps front s) (t : Token) : Keeps front (s.push t) := by
  refine ⟨?_, h.behind⟩
  simp only [Lexer.push, Array.toList_push]
  exact h.tokens.trans (List.prefix_append _ _)

theorem roll (h : Keeps front s) {position : Nat} (hposition : front.length ≤ position)
    (column : Nat) (t : Token) : Keeps front (s.roll column position t) := by
  unfold Lexer.roll
  split
  · exact ⟨prefix_insertIdx h.tokens hposition t, h.behind⟩
  · exact h

theorem unroll (h : Keeps front s) (column : Nat) : Keeps front (s.unroll column) := by
  unfold Lexer.unroll
  split
  · exact h
  · refine ⟨?_, h.behind⟩
    simp only [Array.toList_append]
    exact h.tokens.trans (List.prefix_append _ _)

theorem unrollAll (h : Keeps front s) : Keeps front s.unrollAll := by
  unfold Lexer.unrollAll
  split
  · exact h
  · refine ⟨?_, h.behind⟩
    simp only [Array.toList_append]
    exact h.tokens.trans (List.prefix_append _ _)

theorem dropCandidate (h : Keeps front s) (hs : s.dropCandidate? = some s') : Keeps front s' := by
  unfold dropCandidate? at hs
  split at hs
  · next c rest hcandidates =>
    split at hs
    · cases hs
    · cases hs
      refine ⟨h.tokens, fun c' hc' => h.behind c' ?_⟩
      rw [hcandidates]
      exact List.mem_cons_of_mem _ (by simpa using hc')
  · cases hs
    exact h

theorem saveCandidate {g : Glyph} (h : Keeps front s) (hs : s.saveCandidate? g = some s') :
    Keeps front s' := by
  unfold saveCandidate? at hs
  split at hs
  · obtain ⟨mid, hmid, heq⟩ := Option.bind_eq_some_iff.mp hs
    cases heq
    have hkeeps := h.dropCandidate hmid
    refine ⟨hkeeps.tokens, fun c hc => ?_⟩
    rcases List.mem_cons.mp hc with heq | hc
    · cases heq
      exact hkeeps.length_le
    · exact hkeeps.behind c (List.mem_of_mem_drop hc)
  · cases hs
    exact h

theorem atDocumentLevel (h : Keeps front s) (hs : s.atDocumentLevel? = some s') :
    Keeps front s' := by
  obtain ⟨mid, hmid, heq⟩ := Option.bind_eq_some_iff.mp hs
  cases heq
  exact ⟨(h.unrollAll.dropCandidate hmid).tokens, (h.unrollAll.dropCandidate hmid).behind⟩

theorem flowStart {g : Glyph} {rest : List Glyph} {t : Token} (h : Keeps front s)
    (hs : s.flowStart? g rest t = some s') : Keeps front s' := by
  obtain ⟨mid, hmid, heq⟩ := Option.bind_eq_some_iff.mp hs
  cases heq
  have hkeeps := (h.saveCandidate hmid).push t
  refine ⟨hkeeps.tokens, fun c hc => hkeeps.behind c ?_⟩
  rcases List.mem_cons.mp hc with heq | hc
  · cases heq
  · exact hc

theorem flowEnd {rest : List Glyph} {t : Token} (h : Keeps front s)
    (hs : s.flowEnd? rest t = some s') : Keeps front s' := by
  obtain ⟨mid, hmid, heq⟩ := Option.bind_eq_some_iff.mp hs
  cases heq
  have hkeeps := (h.dropCandidate hmid).push t
  refine ⟨hkeeps.tokens, fun c hc => hkeeps.behind c ?_⟩
  dsimp only at hc
  split at hc
  · exact List.mem_of_mem_drop hc
  · exact hc

theorem flowEntry {rest : List Glyph} (h : Keeps front s) (hs : s.flowEntry? rest = some s') :
    Keeps front s' := by
  obtain ⟨mid, hmid, heq⟩ := Option.bind_eq_some_iff.mp hs
  cases heq
  have hkeeps := (h.dropCandidate hmid).push .flowEntry
  exact ⟨hkeeps.tokens, hkeeps.behind⟩

theorem blockEntry {g : Glyph} {rest : List Glyph} (h : Keeps front s)
    (hs : s.blockEntry? g rest = some s') : Keeps front s' := by
  unfold blockEntry? at hs
  split at hs
  · cases hs
  · obtain ⟨mid, hmid, heq⟩ := Option.bind_eq_some_iff.mp hs
    cases heq
    have hkeeps := ((h.roll h.length_le g.column .blockSequenceStart).dropCandidate hmid).push
      .blockEntry
    exact ⟨hkeeps.tokens, hkeeps.behind⟩

theorem key {g : Glyph} {rest : List Glyph} (h : Keeps front s) (hs : s.key? g rest = some s') :
    Keeps front s' := by
  unfold key? at hs
  split at hs
  · cases hs
  · obtain ⟨mid, hmid, heq⟩ := Option.bind_eq_some_iff.mp hs
    cases heq
    have hkeeps := ((h.roll h.length_le g.column .blockMappingStart).dropCandidate hmid).push .key
    exact ⟨hkeeps.tokens, hkeeps.behind⟩

/-- A key is put in front of a candidate, which is behind what stays. -/
theorem value {g : Glyph} {rest : List Glyph} (h : Keeps front s)
    (hs : s.value? g rest = some s') : Keeps front s' := by
  unfold value? at hs
  split at hs
  · next c outer hcandidates =>
    cases hs
    have hposition : front.length ≤ c.position := h.behind c (by rw [hcandidates]; simp)
    have hkey : Keeps front { s with
        tokens := s.tokens.insertIdxIfInBounds c.position .key, candidates := none :: outer } := by
      refine ⟨prefix_insertIdx h.tokens hposition .key, fun c' hc' => h.behind c' ?_⟩
      rw [hcandidates]
      exact List.mem_cons_of_mem _ (by simpa using hc')
    have hkeeps := (hkey.roll hposition c.column .blockMappingStart).push .value
    exact ⟨hkeeps.tokens, hkeeps.behind⟩
  · split at hs
    · cases hs
    · cases hs
      have hkeeps := (h.roll h.length_le g.column .blockMappingStart).push .value
      exact ⟨hkeeps.tokens, hkeeps.behind⟩

theorem content {g : Glyph} {read : Option (Token × List Glyph)} (h : Keeps front s)
    (hs : s.content? g read = some s') : Keeps front s' := by
  obtain ⟨mid, hmid, heq⟩ := Option.bind_eq_some_iff.mp hs
  obtain ⟨⟨t, rest⟩, -, heq⟩ := Option.bind_eq_some_iff.mp heq
  cases heq
  have hkeeps := (h.saveCandidate hmid).push t
  exact ⟨hkeeps.tokens, hkeeps.behind⟩

theorem plain {g : Glyph} (h : Keeps front s) (hs : s.plain? g = some s') : Keeps front s' := by
  obtain ⟨mid, hmid, heq⟩ := Option.bind_eq_some_iff.mp hs
  obtain ⟨⟨⟨text, newLine⟩, rest⟩, -, heq⟩ := Option.bind_eq_some_iff.mp heq
  cases heq
  have hkeeps := (h.saveCandidate hmid).push (.scalar .plain text)
  exact ⟨hkeeps.tokens, hkeeps.behind⟩

theorem block {folded : Bool} {rest : List Glyph} (h : Keeps front s)
    (hs : s.block? folded rest = some s') : Keeps front s' := by
  obtain ⟨mid, hmid, heq⟩ := Option.bind_eq_some_iff.mp hs
  obtain ⟨⟨text, rest⟩, -, heq⟩ := Option.bind_eq_some_iff.mp heq
  cases heq
  have hkeeps := (h.dropCandidate hmid).push (.scalar .quoted text)
  exact ⟨hkeeps.tokens, hkeeps.behind⟩

theorem marker {rest : List Glyph} {t : Token} (h : Keeps front s)
    (hs : (s.atDocumentLevel?.map fun s => { s.push t with rest := rest }) = some s') :
    Keeps front s' := by
  obtain ⟨mid, hmid, heq⟩ := Option.map_eq_some_iff.mp hs
  cases heq
  have hkeeps := (h.atDocumentLevel hmid).push t
  exact ⟨hkeeps.tokens, hkeeps.behind⟩

theorem of_ite {p : Prop} [Decidable p] {x y : Option Lexer}
    (h : (if p then x else y) = some s') (hx : x = some s' → Keeps front s')
    (hy : y = some s' → Keeps front s') : Keeps front s' := by
  by_cases hp : p
  · exact hx (by rwa [if_pos hp] at h)
  · exact hy (by rwa [if_neg hp] at h)

/-- One more token leaves what stays as it is. -/
theorem token {g : Glyph} {rest : List Glyph} (h : Keeps front s)
    (hs : s.token? g rest = some s') : Keeps front s' := by
  unfold token? at hs
  refine of_ite hs (fun hs => ?_) fun hs => ?_
  · obtain ⟨mid, hmid, heq⟩ := Option.bind_eq_some_iff.mp hs
    obtain ⟨⟨t, rest⟩, -, heq⟩ := Option.bind_eq_some_iff.mp heq
    cases heq
    have hkeeps := (h.atDocumentLevel hmid).push t
    exact ⟨hkeeps.tokens, hkeeps.behind⟩
  refine of_ite hs h.marker fun hs => ?_
  refine of_ite hs h.marker fun hs => ?_
  refine of_ite hs h.flowStart fun hs => ?_
  refine of_ite hs h.flowStart fun hs => ?_
  refine of_ite hs h.flowEnd fun hs => ?_
  refine of_ite hs h.flowEnd fun hs => ?_
  refine of_ite hs h.flowEntry fun hs => ?_
  refine of_ite hs h.blockEntry fun hs => ?_
  refine of_ite hs h.key fun hs => ?_
  refine of_ite hs h.value fun hs => ?_
  refine of_ite hs h.content fun hs => ?_
  refine of_ite hs h.content fun hs => ?_
  refine of_ite hs h.content fun hs => ?_
  refine of_ite hs h.block fun hs => ?_
  refine of_ite hs h.block fun hs => ?_
  refine of_ite hs h.content fun hs => ?_
  refine of_ite hs h.content fun hs => ?_
  refine of_ite hs h.plain fun hs => ?_
  cases hs

end Keeps

/-- Candidates only go away. -/
theorem mem_of_expire {g : Glyph} {cs cs' : List (Option Candidate)}
    (h : cs.mapM (expire? g) = some cs') {c : Candidate} (hc : some c ∈ cs') : some c ∈ cs := by
  induction cs generalizing cs' with
  | nil =>
    cases h
    exact hc
  | cons first rest ih =>
    rw [List.mapM_cons] at h
    obtain ⟨kept, hkept, h⟩ := Option.bind_eq_some_iff.mp h
    obtain ⟨others, hothers, heq⟩ := Option.bind_eq_some_iff.mp h
    cases heq
    rcases List.mem_cons.mp hc with rfl | hc
    · have hfirst : first = some c := by
        unfold expire? at hkept
        split at hkept
        · cases hkept
        · split at hkept
          · split at hkept <;> cases hkept
          · exact Option.some.inj hkept
      exact List.mem_cons.mpr (.inl hfirst.symm)
    · exact List.mem_cons_of_mem _ (ih hothers hc)

/-- The tokens of a text begin with those that stay. -/
theorem run?_keeps {fuel : Nat} {front ts : List Token} {s : Lexer}
    (hs : run? fuel s = some ts) (h : Keeps front s) : front <+: ts := by
  induction fuel generalizing s with
  | zero => cases hs
  | succ fuel ih =>
    unfold run? at hs
    generalize skipGap s.inFlow false s.keyAllowed s.rest = gap at hs
    obtain ⟨keyAllowed, rest⟩ := gap
    cases rest with
    | nil =>
      obtain ⟨last, hlast, rfl⟩ := Option.map_eq_some_iff.mp hs
      have hkeeps : Keeps front { s with keyAllowed, rest := [] } := ⟨h.tokens, h.behind⟩
      exact (hkeeps.unrollAll.dropCandidate hlast).tokens
    | cons g more =>
      obtain ⟨candidates, hcandidates, hs⟩ := Option.bind_eq_some_iff.mp hs
      obtain ⟨next, hnext, hs⟩ := Option.bind_eq_some_iff.mp hs
      -- Candidates that have not expired were there before, so they are still behind.
      have hkeeps : Keeps front { s with keyAllowed, rest := g :: more, candidates } :=
        ⟨h.tokens, fun c hc => h.behind c (mem_of_expire hcandidates hc)⟩
      exact ih hs ((hkeeps.unroll g.column).token hnext)

end Runbook.Yaml.Lexer
