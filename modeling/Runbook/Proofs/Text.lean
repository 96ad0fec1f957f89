/-
Runs of characters, and the classes they are of.

Readers take a run of one kind off the front of what is left; where the run ends first they take
all of it and leave the rest (`takeWhile_run`). Trimming takes the runs of blanks off both ends
(`trim_eq_iff`). Digits are neither blanks nor signs.
-/
import Mathlib.Data.List.Basic
import Runbook.Binary64.Decimal
import Runbook.Text.Classes

namespace Runbook.Text

variable {c d : Char} {cs middle rest : List Char}

/-- A run of characters of one kind that a text goes on without. -/
theorem takeWhile_run {p : Char → Bool} (h : ∀ c ∈ cs, p c = true)
    (hrest : ∀ c, rest.head? = some c → p c = false) :
    (cs ++ rest).takeWhile p = cs ∧ (cs ++ rest).dropWhile p = rest := by
  rw [List.takeWhile_append_of_pos h, List.dropWhile_append_of_pos h]
  cases rest with
  | nil => simp
  | cons c rest => simp [hrest c rfl]

/-- What is left behind a run does not go on with it. -/
theorem head?_dropWhile {p : Char → Bool} (h : (cs.dropWhile p).head? = some c) : p c = false := by
  have hnot := List.head?_dropWhile_not p cs
  rw [h] at hnot
  simpa using hnot

/-- The characters are others between blanks, and have no blank at either end themselves. -/
def IsTrimmed (cs middle : List Char) : Prop :=
  ∃ before after, cs = before ++ (middle ++ after) ∧ (∀ c ∈ before, isBlank c = true) ∧
    (∀ c ∈ after, isBlank c = true) ∧ (∀ c, middle.head? = some c → isBlank c = false) ∧
    ∀ c, middle.getLast? = some c → isBlank c = false

theorem isTrimmed_trim (cs : List Char) : IsTrimmed cs (trim cs) := by
  let front := trimStart cs
  have hcs : cs.takeWhile isBlank ++ front = cs := List.takeWhile_append_dropWhile
  have hfront : trim cs ++ (front.reverse.takeWhile isBlank).reverse = front := by
    have hback : front.reverse.takeWhile isBlank ++ trimStart front.reverse = front.reverse :=
      List.takeWhile_append_dropWhile
    simpa [trim, front] using congrArg List.reverse hback
  refine ⟨cs.takeWhile isBlank, (front.reverse.takeWhile isBlank).reverse, ?_, ?_, ?_, ?_, ?_⟩
  · rw [hfront, hcs]
  · exact fun c hc => List.all_eq_true.mp List.all_takeWhile c hc
  · exact fun c hc => List.all_eq_true.mp List.all_takeWhile c (List.mem_reverse.mp hc)
  · intro c hc
    have hstart : front.head? = some c := by rw [← hfront, List.head?_append, hc, Option.some_or]
    exact head?_dropWhile hstart
  · intro c hc
    rw [← List.head?_reverse, trim, List.reverse_reverse] at hc
    exact head?_dropWhile hc

/-- Trimming takes all blanks off both ends, and nothing else. -/
theorem trim_eq_iff : trim cs = middle ↔ IsTrimmed cs middle := by
  constructor
  · rintro rfl
    exact isTrimmed_trim cs
  · rintro ⟨before, after, rfl, hbefore, hafter, hhead, hlast⟩
    cases middle with
    | nil =>
      -- all are blanks
      have hall : ∀ c ∈ before ++ after, isBlank c = true := fun c hc =>
        (List.mem_append.mp hc).elim (hbefore c) (hafter c)
      have hfront : trimStart (before ++ after ++ []) = [] := (takeWhile_run hall (by simp)).2
      rw [List.append_nil] at hfront
      rw [List.nil_append, trim, hfront]
      rfl
    | cons c middle =>
      have hstart : ∀ d, (c :: middle ++ after).head? = some d → isBlank d = false := hhead
      have hfront : trimStart (before ++ (c :: middle ++ after)) = c :: middle ++ after :=
        (takeWhile_run hbefore hstart).2
      have hback : trimStart (after.reverse ++ (c :: middle).reverse) = (c :: middle).reverse := by
        refine (takeWhile_run (fun c hc => hafter c (List.mem_reverse.mp hc)) fun d hd => ?_).2
        exact hlast d (List.head?_reverse.symm.trans hd)
      rw [trim, hfront, List.reverse_append, hback, List.reverse_reverse]

theorem ne_of_isDecimalDigit (h : isDecimalDigit d = true) (hc : isDecimalDigit c = false) :
    d ≠ c := by
  rintro rfl
  rw [h] at hc
  cases hc

theorem isBlank_of_isDecimalDigit (h : isDecimalDigit d = true) : isBlank d = false := by
  obtain ⟨z, hz, hrange⟩ := List.any_eq_true.mp h
  simp only [Bool.and_eq_true, decide_eq_true_eq] at hrange
  have hzeros : ∀ z ∈ digitZeros, 0x21 ≤ z ∧ z + 10 ≤ 0x85 ∨ 0xa1 ≤ z ∧ z + 10 ≤ 0x1680 ∨
      0x1681 ≤ z ∧ z + 10 ≤ 0x2000 ∨ 0x3001 ≤ z := by decide
  have hbetween := hzeros z hz
  simp only [isBlank, Bool.or_eq_false_iff, Bool.and_eq_false_iff, decide_eq_false_iff_not,
    beq_eq_false_iff_ne]
  omega

/-- The ASCII digits are among the digits of all scripts. -/
theorem isDecimalDigit_of_isAsciiDigit (h : isAsciiDigit d = true) : isDecimalDigit d = true := by
  simp only [isAsciiDigit, Bool.and_eq_true, decide_eq_true_eq] at h
  have hlow : 0x30 ≤ d.toNat := h.1
  have hhigh : d.toNat ≤ 0x39 := h.2
  refine List.any_eq_true.mpr ⟨0x30, List.mem_cons_self .., ?_⟩
  simp only [Bool.and_eq_true, decide_eq_true_eq]
  omega

end Runbook.Text
