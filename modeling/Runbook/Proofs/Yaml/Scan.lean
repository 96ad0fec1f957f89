/-
Scalars where their text is known.

The glyphs of a text depend on where it stands, and a scalar is read off glyphs. As long as the
characters keep to their line the glyphs come one by one (`place_cons`), so a word or a quoted run
that is followed by the right character is read whatever the place (`scan?_word`, `scan?_quoted`).
-/
import Mathlib.Data.List.Basic
import Runbook.Yaml.Lexer

namespace Runbook.Yaml

/-! ## Places -/

/-- Whether what follows the character stands on the same line. -/
def keepsLine (c : Char) : Bool := !(isBreak c || c == '\r' || c.toNat == 0x85)

/-- The octets of a text. -/
def octets : List Char → Nat
  | [] => 0
  | c :: cs => c.utf8Size + octets cs

variable {c : Char} {cs rest : List Char} {line column index : Nat}

theorem place_cons (h : keepsLine c = true) (cs : List Char) (line column index : Nat) :
    place (c :: cs) line column index =
      ⟨c, line, column, index⟩ :: place cs line (column + 1) (index + c.utf8Size) := by
  simp only [keepsLine, isBreak, Bool.not_eq_true', Bool.or_eq_false_iff, beq_eq_false_iff_ne] at h
  obtain ⟨⟨⟨hfeed, hseparator⟩, hreturn⟩, hnext⟩ := h
  rw [place]
  · rw [if_neg (by simp [hfeed, hreturn, hnext]), hseparator, if_neg Bool.false_ne_true]
  · intro rest heq
    exact absurd heq hreturn

theorem place_newline (cs : List Char) (line column index : Nat) :
    place ('\n' :: cs) line column index =
      ⟨'\n', line, column, index⟩ :: place cs (line + 1) 0 (index + 1) := by
  rw [place]
  · rfl
  · intro rest heq
    cases heq

theorem isBreak_of_keepsLine (h : keepsLine c = true) : isBreak c = false := by
  simp only [keepsLine, Bool.not_eq_true', Bool.or_eq_false_iff] at h
  exact h.1.1

/-- A text begins with its first character, or with a break. -/
theorem place_head (c : Char) (cs : List Char) (line column index : Nat) :
    ∃ g gs, place (c :: cs) line column index = g :: gs ∧ (g.char = c ∨ isBreak g.char = true) := by
  rw [place.eq_def]
  split
  · next heq => cases heq
  · exact ⟨_, _, rfl, .inr rfl⟩
  · next d ds _ _ heq =>
    cases heq
    dsimp only
    split
    · exact ⟨_, _, rfl, .inr rfl⟩
    · split
      · exact ⟨_, _, rfl, .inl rfl⟩
      · exact ⟨_, _, rfl, .inl rfl⟩

theorem isBlankOrEnd_place (h : isBlankOrEnd (some c) = true) (cs : List Char)
    (line column index : Nat) :
    isBlankOrEnd (peek 0 (place (c :: cs) line column index)) = true := by
  obtain ⟨g, gs, hplace, hg⟩ := place_head c cs line column index
  rw [hplace]
  show isBlankOrEnd (some g.char) = true
  rcases hg with hg | hg
  · rw [hg]
    exact h
  · simp [isBlankOrEnd, hg]

/-! ## Words -/

/-- What can be a key without quotes, by its letters and its length. -/
structure IsWord (cs : List Char) : Prop where
  ne_nil : cs ≠ []
  letters : ∀ c ∈ cs, c.isAlpha = true
  size : octets cs ≤ 1024

namespace Letter

theorem ne (h : c.isAlpha = true) {d : Char} (hd : d.isAlpha = false) : c ≠ d := by
  rintro rfl
  rw [h] at hd
  cases hd

theorem toNat_lt (h : c.isAlpha = true) : c.toNat < 128 := by
  rcases Bool.or_eq_true_iff.mp h with hupper | hlower
  · have hle : c.val ≤ 'Z'.val := (of_decide_eq_true hupper).2
    exact Nat.lt_of_le_of_lt (UInt32.le_iff_toNat_le.mp hle) (by decide)
  · have hle : c.val ≤ 'z'.val := of_decide_eq_true (Bool.and_eq_true_iff.mp hlower).2
    exact Nat.lt_of_le_of_lt (UInt32.le_iff_toNat_le.mp hle) (by decide)

theorem keepsLine (h : c.isAlpha = true) : keepsLine c = true := by
  have hlt := toNat_lt h
  have hseparator : isSeparator c = false := by
    simp only [isSeparator, Bool.or_eq_false_iff, beq_eq_false_iff_ne]
    omega
  have hnext : (c.toNat == 0x85) = false := by
    rw [beq_eq_false_iff_ne]
    omega
  simp [Yaml.keepsLine, isBreak, hseparator, hnext, ne h (d := '\n') rfl, ne h (d := '\r') rfl]

theorem isBlank (h : c.isAlpha = true) : isBlank c = false := by
  simp [Yaml.isBlank, ne h (d := ' ') rfl, ne h (d := '\t') rfl]

end Letter

/-- The glyphs of a word begin with a letter where the word does. -/
theorem place_word {word : List Char} (h : IsWord word) (rest : List Char)
    (line column index : Nat) : ∃ g more, place (word ++ rest) line column index = g :: more ∧
      g.char.isAlpha = true ∧ g.line = line ∧ g.column = column ∧ g.index = index := by
  obtain ⟨hne, hletters, -⟩ := h
  cases word with
  | nil => exact absurd rfl hne
  | cons c cs =>
    have hc : c.isAlpha = true := hletters c (by simp)
    exact ⟨_, _, place_cons (Letter.keepsLine hc) _ _ _ _, hc, rfl, rfl, rfl⟩

namespace PlainScalar

/-- A letter is part of the scalar. -/
theorem role_letter (h : c.isAlpha = true) (inFlow : Bool) (next : Option Char) :
    role inFlow c next = .part := by
  have hmark : isFlowMark c = false := by
    simp [isFlowMark, Letter.ne h (d := ',') rfl, Letter.ne h (d := '[') rfl,
      Letter.ne h (d := ']') rfl, Letter.ne h (d := '\x7b') rfl, Letter.ne h (d := '\x7d') rfl]
  have hcolon : (c == ':') = false := beq_false_of_ne (Letter.ne h rfl)
  simp [role, hmark, hcolon]

/-- The letters of a word are read one after another. -/
theorem scan?_word {word : List Char} (h : ∀ c ∈ word, c.isAlpha = true) (inFlow : Bool)
    (indent : Nat) (text rest : List Char) (line column index : Nat) :
    scan? inFlow indent ⟨text, none⟩ (place (word ++ rest) line column index) =
      scan? inFlow indent ⟨word.reverse ++ text, none⟩
        (place rest line (column + word.length) (index + octets word)) := by
  induction word generalizing text column index with
  | nil => rfl
  | cons c word ih =>
    have hc : c.isAlpha = true := h c (by simp)
    have hkeeps := Letter.keepsLine hc
    rw [List.cons_append, place_cons hkeeps, scan?]
    simp only [Letter.isBlank hc, isBreak_of_keepsLine hkeeps, role_letter hc, Option.isSome_none,
      Bool.false_and, Bool.false_eq_true, if_false]
    rw [ih fun d hd => h d (by simp [hd])]
    simp only [List.reverse_cons, List.append_assoc, List.singleton_append, List.length_cons,
      octets, Nat.add_assoc, Nat.add_comm 1]
    rfl

/-- A word ends at a colon that a blank or a break follows. -/
theorem scan?_colon {gs : List Glyph} (hnext : isBlankOrEnd (peek 0 gs) = true) (inFlow : Bool)
    (indent : Nat) (text : List Char) (line column index : Nat) :
    scan? inFlow indent ⟨text, none⟩ (⟨':', line, column, index⟩ :: gs) =
      some ((String.ofList text.reverse, false), ⟨':', line, column, index⟩ :: gs) := by
  have hrole : role inFlow ':' (peek 0 gs) = .ending := by
    cases hpeek : peek 0 gs with
    | none => cases inFlow <;> rfl
    | some d =>
      rw [hpeek] at hnext
      have hmark : (isFlowMark d || d == '?') = false := by
        rw [Bool.eq_false_iff]
        intro hmark
        simp only [isFlowMark, Bool.or_eq_true, beq_iff_eq] at hmark
        rcases hmark with (((((rfl | rfl) | rfl) | rfl) | rfl) | rfl) <;> cases hnext
      simp [role, hmark, hnext]
  rw [scan?]
  simp [hrole, isBlank, isBreak, isSeparator, finish]

/-- A key is read up to its colon. -/
theorem scan?_key {word : List Char} (hword : ∀ c ∈ word, c.isAlpha = true)
    (hc : isBlankOrEnd (some c) = true) (inFlow : Bool) (indent : Nat) (rest : List Char)
    (line column index : Nat) :
    scan? inFlow indent {} (place (word ++ ':' :: c :: rest) line column index) =
      some ((String.ofList word, false),
        ⟨':', line, column + word.length, index + octets word⟩ ::
          place (c :: rest) line (column + word.length + 1) (index + octets word + 1)) := by
  have hcolon : place (':' :: c :: rest) line (column + word.length) (index + octets word) =
      ⟨':', line, column + word.length, index + octets word⟩ ::
        place (c :: rest) line (column + word.length + 1) (index + octets word + 1) :=
    place_cons rfl _ _ _ _
  rw [scan?_word hword, hcolon, scan?_colon (isBlankOrEnd_place hc _ _ _ _), List.append_nil,
    List.reverse_reverse]

end PlainScalar

/-! ## Quoted runs -/

/-- What stands between single quotes as it is. -/
structure IsVerbatim (cs : List Char) : Prop where
  keepsLine : ∀ c ∈ cs, keepsLine c = true
  not_blank : ∀ c ∈ cs, isBlank c = false
  no_quote : '\'' ∉ cs

namespace QuotedScalar

/-- A quote ends the scalar unless another one follows. -/
theorem scan?_quote (hrest : rest.head? ≠ some '\'') (text : List Char) (line column index : Nat) :
    scan? true .quote text (place rest line column index) =
      some (String.ofList text.reverse, place rest line column index) := by
  cases rest with
  | nil => rfl
  | cons c cs =>
    obtain ⟨g, gs, hplace, hg⟩ := place_head c cs line column index
    have hne : g.char ≠ '\'' := by
      intro heq
      rw [heq] at hg
      rcases hg with rfl | hbreak
      · exact hrest rfl
      · cases hbreak
    rw [hplace, scan?]
    simp only [move, if_neg hne]

/-- What can stand between two quotes as it is is read so. -/
theorem scan?_quoted {ds : List Char} (hds : IsVerbatim ds) (hrest : rest.head? ≠ some '\'')
    (text : List Char) (line column index : Nat) :
    scan? true .word text (place (ds ++ '\'' :: rest) line column index) =
      some (String.ofList (text.reverse ++ ds),
        place rest line (column + ds.length + 1) (index + octets ds + 1)) := by
  induction ds generalizing text column index with
  | nil =>
    have hmove : ∀ gs, move true .word text ⟨'\'', line, column, index⟩ gs = .on .quote text :=
      fun _ => rfl
    rw [List.nil_append, place_cons rfl, scan?]
    simp only [hmove]
    rw [scan?_quote hrest, List.append_nil]
    rfl
  | cons d ds ih =>
    obtain ⟨hkeeps, hblank, hquote⟩ := hds
    have hd := hkeeps d (by simp)
    have hne : d ≠ '\'' := fun heq => hquote (by simp [heq])
    have hmore : IsVerbatim ds := ⟨fun e he => hkeeps e (by simp [he]),
      fun e he => hblank e (by simp [he]), fun he => hquote (by simp [he])⟩
    rw [List.cons_append, place_cons hd, scan?]
    simp only [move, hblank d (by simp), isBreak_of_keepsLine hd, word, if_neg hne,
      Bool.false_eq_true, if_false, if_true]
    rw [ih hmore]
    simp only [List.reverse_cons, List.append_assoc, List.singleton_append, List.length_cons,
      octets, Nat.add_assoc, Nat.add_comm 1]

end QuotedScalar

end Runbook.Yaml
