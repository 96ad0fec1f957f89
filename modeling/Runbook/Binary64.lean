/-
Finite numbers of the 64-bit binary format, computed with naturals alone.

A number is a sign and a code, the 63 bits below the sign read as one
natural. Codes count the magnitudes upwards from zero, so the order of
numbers is the order of their signed codes. Every magnitude is a whole
number of units of `2^-1074`, so sums and products are exact in `Nat` and
`Int` and are rounded once, by `nearestCode`. Infinity and NaN are no
numbers here: an operation that leaves the range answers `none`. The first
code past the range is `0x7ff0000000000000`, and `0x10000000000000` codes
(`2^52`) share an exponent.
-/

namespace Runbook

/-- A finite binary64 number. Zero has two spellings, told apart by the sign. -/
structure Binary64 where
  negative : Bool
  code : Nat
  code_lt : code < 0x7ff0000000000000 := by decide
deriving DecidableEq

namespace Binary64

/-- The magnitude with the given code, in units of `2^-1074`: the high bits
are an exponent, and below the first one the leading digit is absent. -/
def unitsOfCode (code : Nat) : Nat :=
  let exponent := code >>> 52
  let fraction := code % 0x10000000000000
  if exponent = 0 then fraction else (0x10000000000000 + fraction) <<< (exponent - 1)

/-- The magnitude in units of `2^-1074`. -/
def units (x : Binary64) : Nat := unitsOfCode x.code

/-- The value in units of `2^-1074`. -/
def scaled (x : Binary64) : Int := if x.negative then -(x.units : Int) else x.units

/-- Numbers are ordered as their keys are; the two zeros share one. -/
def key (x : Binary64) : Int := if x.negative then -(x.code : Int) else x.code

instance : LT Binary64 := ⟨fun x y => x.key < y.key⟩
instance : LE Binary64 := ⟨fun x y => x.key ≤ y.key⟩
instance (x y : Binary64) : Decidable (x < y) := inferInstanceAs (Decidable (x.key < y.key))
instance (x y : Binary64) : Decidable (x ≤ y) := inferInstanceAs (Decidable (x.key ≤ y.key))

/-- Equality of numbers: the two zeros are equal. -/
def sameAs (x y : Binary64) : Bool := x.key == y.key

def zero : Binary64 := { negative := false, code := 0 }

instance : Inhabited Binary64 := ⟨zero⟩

/-- The same magnitude with the other sign. -/
def neg (x : Binary64) : Binary64 := { x with negative := !x.negative }

def isZero (x : Binary64) : Bool := x.code == 0

/-! ## Rounding -/

/-- The whole number nearest to `num / den`; a half goes to the even neighbour. -/
def roundEven (num den : Nat) : Nat :=
  let quotient := num / den
  let rest := num % den
  if 2 * rest < den then quotient
  else if den < 2 * rest then quotient + 1
  else quotient + quotient % 2

/-- The code of the number nearest to `num / den` units. Magnitudes of 53 bits
and fewer are their own codes; a longer one loses its low bits, and each bit
lost steps the exponent, which is one step of `2^52` in the code. -/
def nearestCode (num den : Nat) : Nat :=
  let shift := Nat.log2 (num / den) - 52
  roundEven num (den <<< shift) + shift * 0x10000000000000

/-- The number with this sign and code, if the code is a finite one. -/
def ofCode? (negative : Bool) (code : Nat) : Option Binary64 :=
  if h : code < 0x7ff0000000000000 then some ⟨negative, code, h⟩ else none

/-- The number nearest to `num / den` units with the given sign. -/
def ofUnits? (negative : Bool) (num den : Nat) : Option Binary64 :=
  ofCode? negative (nearestCode num den)

/-- The number with this sign and code; codes past the range mean the largest. -/
def ofCode (negative : Bool) (code : Nat) : Binary64 :=
  ⟨negative, min code 0x7fefffffffffffff, by omega⟩

/-- The number nearest to an integer. Integers of 64 bits are well inside the range. -/
def ofInt (i : Int) : Binary64 :=
  ofCode (decide (i < 0)) (nearestCode (i.natAbs <<< 1074) 1)

/-- The number nearest to a natural number. -/
def ofNat (n : Nat) : Binary64 := ofInt n

/-! ## Arithmetic -/

/-- The rounded sum, or `none` past the range. A sum of zero is negative only
when both terms are. -/
def add? (x y : Binary64) : Option Binary64 :=
  let sum := x.scaled + y.scaled
  let negative := if sum = 0 then x.negative && y.negative else decide (sum < 0)
  ofUnits? negative sum.natAbs 1

/-- Half the number. -/
def half (x : Binary64) : Binary64 := ofCode x.negative (nearestCode x.units 2)

/-- The rounded product with a natural number, or `none` past the range. -/
def scale? (x : Binary64) (n : Nat) : Option Binary64 := ofUnits? x.negative (x.units * n) 1

/-- The magnitude rounded to a whole number, a half upwards. -/
def roundedMagnitude (x : Binary64) : Nat := (2 * x.units + (1 <<< 1074)) >>> 1075

end Binary64

end Runbook
