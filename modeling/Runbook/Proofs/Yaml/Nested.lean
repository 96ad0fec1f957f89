/-
A document that begins with a mapping in a mapping.

Written on lines of its own or in braces, the outer key, the inner one and a quoted value after it
come to the same tokens (`prefix_of_nested`), whatever follows them, and so to the first entry of
the first entry of the document (`read?_nested`).
-/
import Runbook.Proofs.Yaml.Contents
import Runbook.Proofs.Yaml.Kept
import Runbook.Proofs.Yaml.Lexing

namespace Runbook.Yaml

/-- How a mapping begins under its key: further in on the next line, or in braces on the same. -/
inductive Layout where
  | block (indent : Nat)
  | flow (before inside : Nat)

namespace Layout

/-- What stands between the colon of a key and the first key of the mapping under it. -/
def gap : Layout → List Char
  | block indent => '\n' :: List.replicate (indent + 1) ' '
  | flow before inside => List.replicate (before + 1) ' ' ++ '\x7b' :: List.replicate inside ' '

/-- The token that the mapping starts with. -/
def start : Layout → Token
  | block _ => .blockMappingStart
  | flow .. => .flowMappingStart

end Layout

/-! ## Tokens -/

namespace Lexer

/-- A key that opens a block mapping. -/
theorem afterKey_opens {s : Lexer} {column : Nat} (hflow : s.inFlow = false)
    (hcolumn : s.leastIndent ≤ column) (name : String) (glyphs : List Glyph) :
    s.afterKey column name glyphs = { s with
      rest := glyphs, indents := column :: s.indents, keyAllowed := false
      tokens := (((s.tokens.push .blockMappingStart).push .key).push (.scalar .plain name)).push
        .value } := by
  have hopens : (!s.inFlow && decide (s.leastIndent ≤ column)) = true := by
    rw [hflow, decide_eq_true hcolumn]
    rfl
  have hinsert : s.tokens.insertIdxIfInBounds s.tokens.size .blockMappingStart =
      s.tokens.push .blockMappingStart := by
    simpa using insert_append s.tokens #[] .blockMappingStart
  rw [afterKey, roll, if_pos hopens, hinsert]
  rfl

/-- A key inside of a flow mapping. -/
theorem afterKey_inFlow {s : Lexer} (hflow : s.inFlow = true) (column : Nat) (name : String)
    (glyphs : List Glyph) : s.afterKey column name glyphs = { s with
      rest := glyphs, keyAllowed := false
      tokens := ((s.tokens.push .key).push (.scalar .plain name)).push .value } := by
  have hopens : ¬ (!s.inFlow && decide (s.leastIndent ≤ column)) = true := by
    rw [hflow]
    exact Bool.false_ne_true
  rw [afterKey, roll, if_neg hopens]
  rfl

/-- The lexer is behind the colon of a key. -/
structure Behind (front : List Token) (columns : List Nat) (depth : Nat) (rest : List Char)
    (s : Lexer) : Prop where
  tokens : s.tokens.toList = front
  indents : s.indents = columns
  candidates : s.candidates = List.replicate (depth + 1) none
  keyAllowed : s.keyAllowed = false
  glyphs : ∃ line column index, s.rest = place rest line column index ∧ ∀ i ∈ columns, i ≤ column

variable {s : Lexer} {front : List Token} {word rest : List Char} {c : Char}

theorem Behind.settled {columns : List Nat} {depth : Nat}
    (h : Behind front columns depth rest s) : s.Settled :=
  ⟨List.replicate depth none, h.candidates, fun _ hc => List.eq_of_mem_replicate hc⟩

/-- The first key of a document. -/
theorem leads_first {more : List Char} (hword : IsWord word) (hrest : rest = c :: more)
    (hc : isBlankOrEnd (some c) = true) :
    ∃ s, Leads { rest := place (word ++ ':' :: rest) 0 0 0 } s ∧
      Behind [.blockMappingStart, .key, .scalar .plain (String.ofList word), .value] [0] 0
        rest s := by
  subst hrest
  let first : Lexer := { rest := place (word ++ ':' :: c :: more) 0 0 0 }
  have hgap : skipGap first.inFlow false first.keyAllowed first.rest = (true, first.rest) :=
    skipGap_word hword false true
  refine ⟨_, leads_key hgap ⟨[], rfl, nofun⟩ nofun hword hc, ?_⟩
  rw [afterKey_opens rfl (Nat.le_refl 0)]
  exact ⟨rfl, rfl, rfl, rfl, _, _, _, rfl, by simp⟩

/-- The key of a mapping on the lines below. -/
theorem Behind.block {indent : Nat} (hword : IsWord word) (hc : isBlankOrEnd (some c) = true)
    (h : Behind front [0] 0 ((Layout.block indent).gap ++ (word ++ ':' :: c :: rest)) s) :
    ∃ s', Leads s s' ∧
      Behind (front ++ [.blockMappingStart, .key, .scalar .plain (String.ofList word), .value])
        [indent + 1, 0] 0 (c :: rest) s' := by
  obtain ⟨line, column, index, hrest, -⟩ := h.glyphs
  have hflow : s.inFlow = false := by
    rw [inFlow, h.candidates]
    rfl
  have hgap : skipGap s.inFlow false s.keyAllowed s.rest = (true,
      place (word ++ ':' :: c :: rest) (line + 1) (indent + 1) (index + 1 + (indent + 1))) := by
    rw [hrest, h.keyAllowed, hflow, Layout.gap, List.cons_append, skipGap_newline, skipGap_spaces,
      skipGap_word hword, Nat.zero_add]
    rfl
  have hindents : ∀ i ∈ s.indents, i ≤ indent + 1 := by simp [h.indents]
  have hleast : s.leastIndent ≤ indent + 1 := by simp [leastIndent, h.indents]
  refine ⟨_, leads_key hgap h.settled hindents hword hc, ?_⟩
  rw [afterKey_opens hflow hleast]
  exact ⟨by simp [h.tokens], by rw [h.indents], h.candidates, rfl, _, _, _, rfl, by simp; omega⟩

/-- The key of a mapping in braces. -/
theorem Behind.flow {before inside : Nat} (hword : IsWord word)
    (hc : isBlankOrEnd (some c) = true)
    (h : Behind front [0] 0 ((Layout.flow before inside).gap ++ (word ++ ':' :: c :: rest)) s) :
    ∃ s', Leads s s' ∧
      Behind (front ++ [.flowMappingStart, .key, .scalar .plain (String.ofList word), .value])
        [0] 1 (c :: rest) s' := by
  obtain ⟨line, column, index, hrest, -⟩ := h.glyphs
  have hindents : ∀ column, ∀ i ∈ s.indents, i ≤ column := by simp [h.indents]
  have hgap : skipGap s.inFlow false s.keyAllowed s.rest = (false,
      place ('\x7b' :: (List.replicate inside ' ' ++ (word ++ ':' :: c :: rest))) line
        (column + (before + 1)) (index + (before + 1))) := by
    rw [hrest, h.keyAllowed, Layout.gap, List.append_assoc, skipGap_spaces, List.cons_append,
      skipGap_place rfl rfl]
  let opened : Lexer := { s.push .flowMappingStart with
    rest := place (List.replicate inside ' ' ++ (word ++ ':' :: c :: rest)) line
      (column + (before + 1) + 1) (index + (before + 1) + 1)
    candidates := none :: s.candidates, keyAllowed := true }
  have hopened : Leads s opened := leads_brace hgap h.settled (hindents _)
  have hcandidates : opened.candidates = [none, none] := congrArg (none :: ·) h.candidates
  have hflow : opened.inFlow = true := by
    rw [inFlow, hcandidates]
    rfl
  have hgap' : skipGap opened.inFlow false opened.keyAllowed opened.rest = (true,
      place (word ++ ':' :: c :: rest) line (column + (before + 1) + 1 + inside)
        (index + (before + 1) + 1 + inside)) :=
    (skipGap_spaces inside _ true).trans (skipGap_word hword _ true)
  have hsettled : opened.Settled := ⟨[none], hcandidates, by simp⟩
  refine ⟨_, hopened.trans (leads_key hgap' hsettled (hindents _) hword hc), ?_⟩
  rw [afterKey_inFlow hflow]
  exact ⟨by simp [opened, push, h.tokens], h.indents, hcandidates, rfl, _, _, _, rfl, by simp⟩

/-- The key of a mapping under a first key, however it is laid out. -/
theorem Behind.nested (layout : Layout) (hword : IsWord word) (hc : isBlankOrEnd (some c) = true)
    (h : Behind front [0] 0 (layout.gap ++ (word ++ ':' :: c :: rest)) s) :
    ∃ s' columns depth, Leads s s' ∧
      Behind (front ++ [layout.start, .key, .scalar .plain (String.ofList word), .value]) columns
        depth (c :: rest) s' := by
  cases layout with
  | block indent =>
    obtain ⟨s', hleads, hbehind⟩ := h.block hword hc
    exact ⟨s', _, _, hleads, hbehind⟩
  | flow before inside =>
    obtain ⟨s', hleads, hbehind⟩ := h.flow hword hc
    exact ⟨s', _, _, hleads, hbehind⟩

/-- A quoted run as the value of a key. -/
theorem Behind.quoted {columns : List Nat} {depth : Nat} {ds : List Char}
    (hds : IsVerbatim ds) (hrest : rest.head? ≠ some '\'')
    (h : Behind front columns depth (' ' :: '\'' :: (ds ++ '\'' :: rest)) s) :
    ∃ s', Leads s s' ∧ Keeps (front ++ [.scalar .quoted (String.ofList ds)]) s' := by
  obtain ⟨line, column, index, hglyphs, hindents⟩ := h.glyphs
  have hgap : skipGap s.inFlow false s.keyAllowed s.rest =
      (false, place ('\'' :: (ds ++ '\'' :: rest)) line (column + 1) (index + 1)) := by
    rw [hglyphs, h.keyAllowed]
    exact (skipGap_spaces 1 _ _).trans (skipGap_place rfl rfl _ _)
  have hcolumn : ∀ i ∈ s.indents, i ≤ column + 1 := by
    rw [h.indents]
    exact fun i hi => Nat.le_succ_of_le (hindents i hi)
  refine ⟨_, leads_quoted hgap h.settled hcolumn hds hrest, ?_, ?_⟩
  · simp [push, h.tokens]
  · intro c hc
    cases h.settled.all_none _ hc

end Lexer

variable {layout : Layout} {outer inner ds rest : List Char}

/-- A text whose first key has a mapping under it, and that one a quoted run under its own. -/
def nested (layout : Layout) (outer inner ds rest : List Char) : List Char :=
  outer ++ ':' :: (layout.gap ++ (inner ++ ':' :: ' ' :: '\'' :: (ds ++ '\'' :: rest)))

/-- The tokens that a nested text begins with. -/
def opening (layout : Layout) (outer inner ds : List Char) : List Token :=
  [.blockMappingStart, .key, .scalar .plain (String.ofList outer), .value, layout.start, .key,
    .scalar .plain (String.ofList inner), .value, .scalar .quoted (String.ofList ds)]

theorem prefix_of_nested {ts : List Token} (houter : IsWord outer) (hinner : IsWord inner)
    (hds : IsVerbatim ds) (hrest : rest.head? ≠ some '\'')
    (h : tokens? (nested layout outer inner ds rest) = some ts) :
    opening layout outer inner ds <+: ts := by
  obtain ⟨gs, hgs, hrun⟩ := Option.bind_eq_some_iff.mp h
  unfold glyphs? at hgs
  split at hgs
  · cases hgs
    obtain ⟨c, cs, hgap, hc⟩ : ∃ c cs, layout.gap = c :: cs ∧ isBlankOrEnd (some c) = true := by
      cases layout with
      | block indent => exact ⟨'\n', _, rfl, rfl⟩
      | flow before inside => exact ⟨' ', _, rfl, rfl⟩
    have hbehind : layout.gap ++ (inner ++ ':' :: ' ' :: '\'' :: (ds ++ '\'' :: rest)) =
        c :: (cs ++ (inner ++ ':' :: ' ' :: '\'' :: (ds ++ '\'' :: rest))) := by
      rw [hgap]
      rfl
    obtain ⟨s₁, hleads₁, hbehind₁⟩ := Lexer.leads_first houter hbehind hc
    obtain ⟨s₂, _, _, hleads₂, hbehind₂⟩ := hbehind₁.nested layout hinner rfl
    obtain ⟨s₃, hleads₃, hkeeps⟩ := hbehind₂.quoted hds hrest
    exact Lexer.run?_keeps ((hleads₁.trans (hleads₂.trans hleads₃)).run? hrun) hkeeps
  · cases hgs

/-! ## Nodes -/

/-- The tree of a document that begins with a mapping in a mapping. -/
def nestedNode (outer inner ds : List Char) (more others : List (Node × Node)) : Node :=
  .mapping none ((.scalar none .plain (String.ofList outer),
    .mapping none ((.scalar none .plain (String.ofList inner),
      .scalar none .quoted (String.ofList ds)) :: more)) :: others)

namespace Reader

/-- The mapping behind the first key. -/
theorem node_nested {s s' : Reading} {n : Node} {fuel : Nat} {more : List Token}
    (h : s.tokens = layout.start :: .key :: .scalar .plain (String.ofList inner) :: .value ::
      .scalar .quoted (String.ofList ds) :: more)
    (hread : node (fuel + 8) true true s = some (n, s')) :
    ∃ entries, n = .mapping none ((.scalar none .plain (String.ofList inner),
      .scalar none .quoted (String.ofList ds)) :: entries) := by
  cases layout with
  | block indent =>
    rw [node_blockMapping h] at hread
    obtain ⟨entries, hentries, rfl⟩ := map_eq_some hread
    obtain ⟨v, s'', es, hv, rfl⟩ := blockEntries_key rfl rfl hentries
    rw [node_scalar rfl] at hv
    cases hv
    exact ⟨es, rfl⟩
  | flow before inside =>
    rw [node_flowMapping h] at hread
    obtain ⟨entries, hentries, rfl⟩ := map_eq_some hread
    obtain ⟨v, s'', es, hv, rfl⟩ := flowEntries_key rfl rfl hentries
    rw [node_scalar rfl] at hv
    cases hv
    exact ⟨es, rfl⟩

theorem document?_of_prefix {ts : List Token} {document : Option (Node × Anchors)}
    (h : opening layout outer inner ds <+: ts) (hdocument : document? ts = some document) :
    ∃ more others anchors, document = some (nestedNode outer inner ds more others, anchors) := by
  obtain ⟨rest, rfl⟩ := h
  obtain ⟨fuel, hfuel⟩ : ∃ fuel, 4 * (opening layout outer inner ds ++ rest).length + 8 =
      fuel + 14 := ⟨4 * rest.length + 30, by simp [opening]; omega⟩
  unfold document? at hdocument
  rw [hfuel] at hdocument
  obtain ⟨⟨n, s⟩, hnode, hdocument⟩ := Option.bind_eq_some_iff.mp hdocument
  have hmapping := (node_blockMapping rfl).symm.trans hnode
  obtain ⟨entries, hentries, rfl⟩ := map_eq_some hmapping
  obtain ⟨v, s'', others, hv, rfl⟩ := blockEntries_key rfl (by cases layout <;> rfl) hentries
  obtain ⟨more, rfl⟩ := node_nested rfl hv
  dsimp only at hdocument
  split at hdocument
  · cases hdocument
    exact ⟨more, others, s.anchors, rfl⟩
  · cases hdocument

end Reader

/-! ## Values -/

/-- A mapping whose first entry has a scalar as its key. -/
theorem Anchors.Means.first_entry {anchors : Anchors} {name : String} {n : Node}
    {entries : List (Node × Node)} {v : Value}
    (h : anchors.Means (.mapping none ((.scalar none .plain name, n) :: entries)) v) :
    ∃ w read, v = .obj (Fields.ofEntries ((name, w) :: read)) ∧ anchors.Means n w := by
  obtain ⟨read, rfl, hread⟩ := h.mapping rfl
  cases hread with
  | @cons _ r _ read hfirst hmore =>
    obtain ⟨htext, hmeans⟩ := hfirst
    obtain ⟨name', w⟩ := r
    cases htext
    exact ⟨w, read, rfl, hmeans⟩

/-- The value of a text that begins with a mapping in a mapping, if it has one. -/
theorem read?_nested {v : Value} (houter : IsWord outer) (hinner : IsWord inner)
    (hds : IsVerbatim ds) (hrest : rest.head? ≠ some '\'')
    (h : Document.read? (String.ofList (nested layout outer inner ds rest)) = some v) :
    ∃ more others, v = .obj (Fields.ofEntries ((String.ofList outer, .obj (Fields.ofEntries
      ((String.ofList inner, .str (String.ofList ds)) :: more))) :: others)) := by
  obtain ⟨ts, hts, hdocument⟩ := Option.bind_eq_some_iff.mp h
  rw [String.toList_ofList] at hts
  obtain ⟨document, hdocument, hvalue⟩ := Option.bind_eq_some_iff.mp hdocument
  obtain ⟨entries, sections, anchors, rfl⟩ :=
    Reader.document?_of_prefix (prefix_of_nested houter hinner hds hrest hts) hdocument
  have htree : Document.tree? (String.ofList (nested layout outer inner ds rest)) =
      some (nestedNode outer inner ds entries sections, anchors) := by
    rw [Document.tree?, String.toList_ofList, hts]
    exact congrArg Option.join hdocument
  have hmeans := Document.means_of_read? h htree
  obtain ⟨w, others, rfl, hw⟩ := hmeans.first_entry
  obtain ⟨u, more, rfl, hu⟩ := hw.first_entry
  cases hu.scalar rfl
  exact ⟨more, others, rfl⟩

end Runbook.Yaml
