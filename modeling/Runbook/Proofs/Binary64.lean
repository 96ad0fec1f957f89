/-
What codes say about values.

Codes count the magnitudes upwards (`unitsOfCode_strictMono`), so the order of numbers is the order
of their exact values (`le_iff_scaled`). A magnitude is its own nearest one
(`nearestCode_unitsOfCode`), so adding zero leaves a value as it is (`add?_zero`), half of a number
is exact unless it would end in half a unit (`isHalf_half`), and an integer is rounded to a number
on its side of zero (`zero_lt_ofInt_iff`).
-/
import Mathlib.Order.Monotone.Basic
import Mathlib.Tactic.Ring
import Runbook.Binary64

namespace Runbook.Binary64

variable {x y : Binary64}

/-! ## Codes -/

/-- A code below `2^52` is its magnitude. -/
theorem unitsOfCode_small {f : Nat} (hf : f < 2 ^ 52) : unitsOfCode f = f := by
  have hexponent : f >>> 52 = 0 := by
    rw [Nat.shiftRight_eq_div_pow]
    exact Nat.div_eq_of_lt hf
  rw [unitsOfCode]
  simp only [hexponent, if_true]
  exact Nat.mod_eq_of_lt hf

/-- Above, an exponent is said by the high bits, and the first digit is not written. -/
theorem unitsOfCode_large {f : Nat} (hf : f < 2 ^ 52) (e : Nat) :
    unitsOfCode ((e + 1) * 2 ^ 52 + f) = (2 ^ 52 + f) * 2 ^ e := by
  have hexponent : ((e + 1) * 2 ^ 52 + f) >>> 52 = e + 1 := by
    rw [Nat.shiftRight_eq_div_pow]
    omega
  have hfraction : ((e + 1) * 2 ^ 52 + f) % 0x10000000000000 = f := by omega
  rw [unitsOfCode]
  simp only [hexponent, hfraction, Nat.add_one_ne_zero, if_false, Nat.add_sub_cancel]
  exact Nat.shiftLeft_eq ..

/-- Every code is one or the other. -/
theorem code_cases (code : Nat) :
    code < 2 ^ 52 ∨ ∃ e f, f < 2 ^ 52 ∧ code = (e + 1) * 2 ^ 52 + f := by
  rcases Nat.lt_or_ge code (2 ^ 52) with h | h
  · exact .inl h
  · exact .inr ⟨code / 2 ^ 52 - 1, code % 2 ^ 52, Nat.mod_lt _ (by decide), by omega⟩

/-- The next code is a larger magnitude. -/
theorem unitsOfCode_lt_succ (code : Nat) : unitsOfCode code < unitsOfCode (code + 1) := by
  rcases code_cases code with h | ⟨e, f, hf, rfl⟩
  · rw [unitsOfCode_small h]
    rcases Nat.lt_or_ge (code + 1) (2 ^ 52) with hnext | hnext
    · rw [unitsOfCode_small hnext]
      exact Nat.lt_succ_self _
    · have hcode : code + 1 = (0 + 1) * 2 ^ 52 + 0 := by omega
      rw [hcode, unitsOfCode_large (by decide)]
      omega
  · rw [unitsOfCode_large hf]
    rcases Nat.lt_or_ge (f + 1) (2 ^ 52) with hnext | hnext
    · rw [Nat.add_assoc, unitsOfCode_large hnext]
      exact Nat.mul_lt_mul_of_pos_right (by omega) (Nat.two_pow_pos e)
    · -- the last magnitude of an exponent, and the first one of the next
      have hcode : (e + 1) * 2 ^ 52 + f + 1 = (e + 1 + 1) * 2 ^ 52 + 0 := by omega
      have hdouble : (2 ^ 52 + 0) * 2 ^ (e + 1) = (2 ^ 52 + 2 ^ 52) * 2 ^ e := by ring
      rw [hcode, unitsOfCode_large (by decide), hdouble]
      exact Nat.mul_lt_mul_of_pos_right (by omega) (Nat.two_pow_pos e)

theorem unitsOfCode_strictMono : StrictMono unitsOfCode :=
  strictMono_nat_of_lt_succ unitsOfCode_lt_succ

theorem unitsOfCode_eq_zero_iff {code : Nat} : unitsOfCode code = 0 ↔ code = 0 := by
  have hzero : unitsOfCode 0 = 0 := rfl
  constructor
  · intro h
    exact unitsOfCode_strictMono.injective (h.trans hzero.symm)
  · rintro rfl
    exact hzero

/-! ## Exact values -/

theorem zero_scaled : zero.scaled = 0 := by decide

/-- Numbers are ordered as their exact values are. -/
theorem le_iff_scaled : x ≤ y ↔ x.scaled ≤ y.scaled := by
  have hunits : x.units ≤ y.units ↔ x.code ≤ y.code := unitsOfCode_strictMono.le_iff_le
  have hunits' : y.units ≤ x.units ↔ y.code ≤ x.code := unitsOfCode_strictMono.le_iff_le
  have hx : x.units = 0 ↔ x.code = 0 := unitsOfCode_eq_zero_iff
  have hy : y.units = 0 ↔ y.code = 0 := unitsOfCode_eq_zero_iff
  show x.key ≤ y.key ↔ _
  unfold key scaled
  split <;> split <;> omega

theorem lt_iff_scaled : x < y ↔ x.scaled < y.scaled := by
  have hnot : x < y ↔ ¬ y ≤ x := Int.not_le.symm
  rw [hnot, le_iff_scaled, Int.not_le]

theorem zero_le_iff_scaled : zero ≤ x ↔ 0 ≤ x.scaled := by rw [le_iff_scaled, zero_scaled]

/-! ## Rounding -/

theorem roundEven_of_mul {n d : Nat} (hd : 0 < d) : roundEven (n * d) d = n := by
  rw [roundEven]
  simp only [Nat.mul_mod_left, Nat.mul_div_cancel n hd, Nat.mul_zero, if_pos hd]

/-- A magnitude of a full 53 bits, shifted by the bits that an exponent stands for. -/
theorem log2_large {f : Nat} (hf : f < 2 ^ 52) (e : Nat) :
    Nat.log2 ((2 ^ 52 + f) * 2 ^ e) = e + 52 := by
  have hpos := Nat.two_pow_pos e
  rw [Nat.log2_eq_iff (Nat.mul_pos (by omega) hpos).ne']
  constructor
  · rw [Nat.pow_add, Nat.mul_comm (2 ^ e)]
    exact Nat.mul_le_mul_right _ (by omega)
  · rw [Nat.add_assoc, Nat.pow_add, Nat.mul_comm (2 ^ e)]
    exact Nat.mul_lt_mul_of_pos_right (by omega) hpos

/-- A magnitude is its own nearest one. -/
theorem nearestCode_unitsOfCode (code : Nat) : nearestCode (unitsOfCode code) 1 = code := by
  rcases code_cases code with h | ⟨e, f, hf, rfl⟩
  · have hlog : Nat.log2 code ≤ 52 := by
      rcases Nat.eq_zero_or_pos code with rfl | hpos
      · decide
      · exact Nat.le_of_lt ((Nat.log2_lt (Nat.pos_iff_ne_zero.mp hpos)).mpr h)
    have hround := roundEven_of_mul (n := code) Nat.one_pos
    rw [Nat.mul_one] at hround
    rw [unitsOfCode_small h, nearestCode]
    simp only [Nat.div_one, Nat.sub_eq_zero_of_le hlog, Nat.zero_mul, Nat.add_zero,
      Nat.shiftLeft_zero, hround]
  · have hround := roundEven_of_mul (n := 2 ^ 52 + f) (Nat.two_pow_pos e)
    rw [unitsOfCode_large hf, nearestCode]
    simp only [Nat.div_one, log2_large hf, Nat.add_sub_cancel, Nat.shiftLeft_eq, Nat.one_mul,
      hround]
    ring

/-- Adding zero leaves the value as it is. -/
theorem add?_zero (x : Binary64) : ∃ y, x.add? zero = some y ∧ y.scaled = x.scaled := by
  have hunits : x.scaled.natAbs = unitsOfCode x.code := by
    unfold scaled units
    split <;> omega
  have hadd : x.add? zero = ofCode? (if x.scaled = 0 then x.negative && false
      else decide (x.scaled < 0)) x.code := by
    rw [add?, zero_scaled, Int.add_zero, ofUnits?, hunits, nearestCode_unitsOfCode]
    rfl
  refine ⟨⟨_, x.code, x.code_lt⟩, by rw [hadd, ofCode?, dif_pos x.code_lt], ?_⟩
  show (if _ then -(unitsOfCode x.code : Int) else (unitsOfCode x.code : Int)) = x.scaled
  by_cases hzero : x.scaled = 0
  · have hnone : unitsOfCode x.code = 0 := by omega
    simp [hnone, hzero]
  · rw [if_neg hzero]
    split
    · next hneg =>
      have hlt : x.scaled < 0 := of_decide_eq_true hneg
      rw [← hunits, Int.ofNat_natAbs_of_nonpos (Int.le_of_lt hlt), Int.neg_neg]
    · next hneg =>
      have hge : ¬ x.scaled < 0 := fun hlt => hneg (decide_eq_true hlt)
      rw [← hunits, Int.natAbs_of_nonneg (Int.not_lt.mp hge)]

/-! ## Halves -/

/-- One number is half of another in their exact values. Of a value that is an odd number of units
the half lies between two magnitudes, and it is the even one of them. -/
def IsHalf (whole half : Binary64) : Prop :=
  2 * half.scaled = whole.scaled ∨
    whole.scaled % 2 = 1 ∧ half.scaled % 2 = 0 ∧ (2 * half.scaled - whole.scaled).natAbs = 1

/-- Up to the first code with an exponent the codes are the magnitudes. -/
theorem unitsOfCode_of_le {code : Nat} (h : code ≤ 2 ^ 52) : unitsOfCode code = code := by
  rcases Nat.lt_or_eq_of_le h with hlt | rfl
  · exact unitsOfCode_small hlt
  · exact unitsOfCode_large (f := 0) (by decide) 0

/-- A half of fewer than 53 bits is rounded to a whole number of units. -/
theorem nearestCode_half_small {n : Nat} (hn : n < 2 ^ 53) :
    nearestCode n 2 = if n % 2 = 0 then n / 2 else n / 2 + n / 2 % 2 := by
  have hlog : Nat.log2 (n / 2) ≤ 52 := by
    rcases Nat.eq_zero_or_pos (n / 2) with hzero | hpos
    · rw [hzero]
      decide
    · exact Nat.le_of_lt ((Nat.log2_lt (Nat.pos_iff_ne_zero.mp hpos)).mpr (by omega))
  rw [nearestCode]
  simp only [Nat.sub_eq_zero_of_le hlog, Nat.zero_mul, Nat.add_zero, Nat.shiftLeft_zero, roundEven]
  rcases Nat.mod_two_eq_zero_or_one n with h | h <;> simp [h]

/-- Half of a longer magnitude has the same digits, and the exponent before. -/
theorem nearestCode_half_large {f : Nat} (hf : f < 2 ^ 52) (e : Nat) :
    nearestCode ((2 ^ 52 + f) * 2 ^ (e + 1)) 2 = (e + 1) * 2 ^ 52 + f := by
  have hdouble : (2 ^ 52 + f) * 2 ^ (e + 1) = (2 ^ 52 + f) * 2 ^ e * 2 := by ring
  have hhalf : (2 ^ 52 + f) * 2 ^ (e + 1) / 2 = (2 ^ 52 + f) * 2 ^ e := by
    rw [hdouble, Nat.mul_div_cancel _ Nat.two_pos]
  have hround := roundEven_of_mul (n := 2 ^ 52 + f) (Nat.two_pow_pos (e + 1))
  have hshift : 2 <<< e = 2 ^ (e + 1) := by rw [Nat.shiftLeft_eq, Nat.pow_succ']
  rw [nearestCode]
  simp only [hhalf, log2_large hf, Nat.add_sub_cancel, hshift, hround]
  ring

/-- The code of a half is no larger, and its magnitude is half of that of the code, rounded to an
even one if there is need. -/
theorem unitsOfCode_half (code : Nat) : ∃ half, nearestCode (unitsOfCode code) 2 = half ∧
    half ≤ code ∧ (2 * unitsOfCode half = unitsOfCode code ∨ unitsOfCode code % 2 = 1 ∧
      unitsOfCode half % 2 = 0 ∧ (2 * (unitsOfCode half : Int) - unitsOfCode code).natAbs = 1) := by
  rcases Nat.lt_or_ge code (2 ^ 53) with hlt | hge
  · have hunits : unitsOfCode code = code := by
      rcases Nat.lt_or_ge code (2 ^ 52) with h | h
      · exact unitsOfCode_small h
      · have hcode : code = (0 + 1) * 2 ^ 52 + (code - 2 ^ 52) := by omega
        rw [hcode, unitsOfCode_large (by omega)]
        omega
    have hnearest := nearestCode_half_small hlt
    have hle : nearestCode code 2 ≤ 2 ^ 52 := by split at hnearest <;> omega
    rw [hunits]
    refine ⟨_, rfl, ?_⟩
    rw [unitsOfCode_of_le hle]
    split at hnearest <;> omega
  · obtain ⟨e, f, hf, rfl⟩ : ∃ e f, f < 2 ^ 52 ∧ code = (e + 1 + 1) * 2 ^ 52 + f :=
      ⟨code / 2 ^ 52 - 2, code % 2 ^ 52, Nat.mod_lt _ (by decide), by omega⟩
    rw [unitsOfCode_large hf, nearestCode_half_large hf]
    refine ⟨_, rfl, by omega, .inl ?_⟩
    rw [unitsOfCode_large hf]
    ring

theorem isHalf_half (x : Binary64) : x.IsHalf x.half := by
  obtain ⟨half, hnearest, hle, hhalf⟩ := unitsOfCode_half x.code
  have hnumber : x.half = ofCode x.negative half := by rw [Binary64.half, units, hnearest]
  have hcode : (ofCode x.negative half).code = half := by
    have hfinite := x.code_lt
    show min half 0x7fefffffffffffff = half
    omega
  have hsign : (ofCode x.negative half).negative = x.negative := rfl
  unfold IsHalf scaled units
  rw [hnumber, hcode, hsign]
  split <;> omega

/-! ## Integers -/

/-- An integer other than zero is at least one, which is far above where rounding ends at zero. -/
theorem isZero_ofInt {i : Int} (h : i ≠ 0) : (ofInt i).isZero = false := by
  have hunits : i.natAbs <<< 1074 ≠ 0 := by
    rw [Nat.shiftLeft_eq]
    exact Nat.mul_ne_zero (Int.natAbs_ne_zero.mpr h) (Nat.pos_iff_ne_zero.mp (Nat.two_pow_pos 1074))
  have hlog : 1074 ≤ (i.natAbs <<< 1074).log2 := by
    rw [Nat.le_log2 hunits, Nat.shiftLeft_eq]
    exact Nat.le_mul_of_pos_left _ (Int.natAbs_pos.mpr h)
  have hcode : 0 < nearestCode (i.natAbs <<< 1074) 1 := by
    unfold nearestCode
    simp only [Nat.div_one]
    generalize (i.natAbs <<< 1074).log2 = k at hlog
    omega
  simp only [isZero, ofInt, ofCode, beq_eq_false_iff_ne]
  omega

/-- Rounding keeps an integer on its side of zero. -/
theorem zero_lt_ofInt_iff {i : Int} : zero < ofInt i ↔ 0 < i := by
  have hkey : zero < ofInt i ↔ 0 < (ofInt i).key := Iff.rfl
  have hsign : (ofInt i).negative = decide (i < 0) := rfl
  rw [hkey, key, hsign]
  rcases Int.lt_trichotomy i 0 with h | rfl | h
  · rw [decide_eq_true h, if_pos rfl]
    omega
  · decide
  · have hcode : (ofInt i).code ≠ 0 := by
      simpa [isZero] using isZero_ofInt (i := i) (by omega)
    rw [decide_eq_false (by omega), if_neg Bool.false_ne_true]
    omega

end Runbook.Binary64
