/-
What a run of digits is read as.

A plain scalar of nothing but digits is an integer by its spelling. It stays text only after a
leading zero; without one it is a number as far as 64 bits go, refused as far as 128 go, and
beyond that rounded (`plain?_digits`).
-/
import Mathlib.Algebra.Group.Nat.Defs
import Mathlib.Data.List.Basic
import Runbook.Yaml.Scalar

namespace Runbook.Yaml.Scalar

/-- A run of decimal digits, with at least one. -/
structure IsRun (ds : List Char) : Prop where
  ne_nil : ds ≠ []
  digits : ∀ d ∈ ds, isAsciiDigit d = true

instance (ds : List Char) : Decidable (IsRun ds) :=
  decidable_of_iff (ds ≠ [] ∧ ds.all isAsciiDigit = true)
    ⟨fun h => ⟨h.1, List.all_eq_true.mp h.2⟩, fun h => ⟨h.1, List.all_eq_true.mpr h.2⟩⟩

variable {ds : List Char} {d : Char}

theorem digit?_ten (h : isAsciiDigit d = true) : digit? 10 d = digitValue? d := by
  simp only [isAsciiDigit, Bool.and_eq_true, decide_eq_true_eq] at h
  have hle : d.toNat ≤ '9'.toNat := h.2
  have hlt : d.toNat - '0'.toNat < 10 := by
    have h9 : '9'.toNat = 57 := rfl
    have h0 : '0'.toNat = 48 := rfl
    omega
  simp only [digit?, digitValue?, if_pos h, Option.filter_some, decide_eq_true hlt, if_true]

theorem natural?_ten (h : IsRun ds) : natural? 10 ds = some (digitsToNat ds) := by
  have hfold : ∀ (cs : List Char) (n : Nat), (∀ c ∈ cs, isAsciiDigit c = true) →
      cs.foldlM (fun n c => (digit? 10 c).map (10 * n + ·)) n =
        some (cs.foldl (fun n c => 10 * n + (digitValue? c).getD 0) n) := by
    intro cs
    induction cs with
    | nil => intros; rfl
    | cons c cs ih =>
      intro n hcs
      have hc : isAsciiDigit c = true := hcs c (by simp)
      have hvalue : ∃ k, digitValue? c = some k := by
        simp only [isAsciiDigit, Bool.and_eq_true, decide_eq_true_eq] at hc
        exact ⟨_, if_pos hc⟩
      obtain ⟨k, hk⟩ := hvalue
      rw [List.foldlM_cons, digit?_ten hc, hk]
      simp only [List.foldl_cons, hk, Option.getD_some]
      exact ih _ fun c' hc' => hcs c' (by simp [hc'])
  cases ds with
  | nil => exact absurd rfl h.ne_nil
  | cons c cs => exact hfold (c :: cs) 0 h.digits

/-- A character that is no digit does not occur in a run. -/
theorem IsRun.ne (h : IsRun ds) (hd : d ∈ ds) {c : Char} (hc : isAsciiDigit c = false) : d ≠ c := by
  rintro rfl
  rw [h.digits d hd] at hc
  cases hc

/-- Runs have neither a sign nor the mark of another base. -/
theorem integer?_digits (h : IsRun ds) :
    integer? ds = if hasLeadingZero ds then none else some (digitsToNat ds : Int) := by
  have hmarked : marked? ds = some (digitsToNat ds) := by
    unfold marked?
    split
    · exact absurd rfl (h.ne (c := 'x') (by simp) rfl)
    · exact absurd rfl (h.ne (c := 'o') (by simp) rfl)
    · exact absurd rfl (h.ne (c := 'b') (by simp) rfl)
    · exact natural?_ten h
  unfold integer?
  split
  · rfl
  · split
    · exact absurd rfl (h.ne (c := '-') (by simp) rfl)
    · exact absurd rfl (h.ne (c := '+') (by simp) rfl)
    · rw [hmarked]
      rfl

/-- Runs are none of the words that are spelt otherwise. -/
theorem not_contains_digits (h : IsRun ds) {words : List String}
    (hwords : ∀ w ∈ words, ¬ IsRun w.toList) : words.contains (String.ofList ds) = false := by
  rw [Bool.eq_false_iff, ne_eq, List.contains_iff_mem]
  intro hmem
  have hrun : ¬ IsRun (String.ofList ds).toList := hwords _ hmem
  rw [String.toList_ofList] at hrun
  exact hrun h

theorem ofInt?_natCast (n : Nat) : Number.ofInt? (n : Int) =
    if n < 2 ^ 64 then some (.nat (UInt64.ofNat n)) else none := by
  rw [Number.ofInt?, if_pos (Int.natCast_nonneg _), Int.toNat_natCast]
  exact if_congr (by omega) rfl rfl

theorem fits128_natCast (n : Nat) : fits128 (n : Int) = decide (n < 2 ^ 128) := by
  rw [fits128, decide_eq_true (by omega), Bool.true_and]
  exact decide_eq_decide.mpr (by omega)

theorem readInteger_of_integer? {i : Int} (h : integer? ds = some i) : readInteger ds =
    match Number.ofInt? i with
    | some n => .number n
    | none => if fits128 i then .refused else .none := by
  cases hn : Number.ofInt? i with
  | some n => simp only [readInteger, h, hn]
  | none => simp only [readInteger, h, hn]

theorem readInteger_digits (h : IsRun ds) (hzero : hasLeadingZero ds = false) :
    readInteger ds = if digitsToNat ds < 2 ^ 64 then .number (.nat (UInt64.ofNat (digitsToNat ds)))
      else if digitsToNat ds < 2 ^ 128 then .refused else .none := by
  have hinteger : integer? ds = some (digitsToNat ds : Int) := by
    rw [integer?_digits h, hzero, if_neg Bool.false_ne_true]
  rw [readInteger_of_integer? hinteger, ofInt?_natCast, fits128_natCast]
  by_cases hlt : digitsToNat ds < 2 ^ 64
  · rw [if_pos hlt, if_pos hlt]
  · rw [if_neg hlt, if_neg hlt]
    exact if_congr decide_eq_true_iff rfl rfl

/-- A plain run of digits is text after a leading zero; else it is the number, if 64 bits hold
it, and else nothing, if 128 bits do. -/
theorem plain?_digits (h : IsRun ds) : plain? (String.ofList ds) =
    if hasLeadingZero ds then some (.str (String.ofList ds))
    else if digitsToNat ds < 2 ^ 64 then some (.ofNat (digitsToNat ds))
    else if digitsToNat ds < 2 ^ 128 then none
    else some ((real? (String.ofList ds)).getD (.str (String.ofList ds))) := by
  have hempty : (String.ofList ds).isEmpty = false := by simpa using h.ne_nil
  have hnull : isNull (String.ofList ds) = false := not_contains_digits h (by decide)
  have hbool : bool? (String.ofList ds) = none := by
    have htrue : ["true", "True", "TRUE"].contains (String.ofList ds) = false :=
      not_contains_digits h (by decide)
    have hfalse : ["false", "False", "FALSE"].contains (String.ofList ds) = false :=
      not_contains_digits h (by decide)
    rw [bool?, htrue, hfalse]
    rfl
  simp only [plain?, hempty, hnull, hbool, String.toList_ofList, Bool.or_false,
    Bool.false_eq_true, if_false]
  cases hzero : hasLeadingZero ds with
  | true =>
    rw [readInteger, integer?_digits h, hzero]
    rfl
  | false =>
    rw [readInteger_digits h hzero]
    by_cases hlt : digitsToNat ds < 2 ^ 64
    · rw [if_pos hlt, if_pos hlt]
      rfl
    · rw [if_neg hlt, if_neg hlt]
      by_cases hrefused : digitsToNat ds < 2 ^ 128
      · rw [if_pos hrefused, if_pos hrefused]
        rfl
      · rw [if_neg hrefused, if_neg hrefused]

end Runbook.Yaml.Scalar
