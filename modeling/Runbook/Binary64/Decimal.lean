/-
Decimal numerals and the number each of them stands for.

`Decimal.read?` takes the usual notation, digits with an optional point and
an optional exponent; `Decimal.toBinary64?` rounds the exact decimal value
once. A value past the range has no number.
-/
import Runbook.Binary64

namespace Runbook

/-- The decimal value `± digits * 10 ^ exponent`. -/
structure Decimal where
  negative : Bool
  digits : Nat
  exponent : Int

/-- The value of an ASCII digit. -/
def digitValue? (c : Char) : Option Nat :=
  if '0' ≤ c ∧ c ≤ '9' then some (c.toNat - '0'.toNat) else none

/-- Whether a character is one of the ten ASCII digits. -/
def isAsciiDigit (c : Char) : Bool := decide ('0' ≤ c) && decide (c ≤ '9')

/-- The natural number a run of ASCII digits writes; other characters count as zeros. -/
def digitsToNat (ds : List Char) : Nat :=
  ds.foldl (fun n c => 10 * n + (digitValue? c).getD 0) 0

namespace Decimal

/-- How many digits a natural number has; zero has none. -/
def width (n : Nat) : Nat := if n = 0 then 0 else (Nat.toDigits 10 n).length

/-- The exponent part of a numeral: empty, or `e` with an optional sign and digits. -/
def readExponent? : List Char → Option Int
  | [] => some 0
  | e :: rest =>
    if e = 'e' ∨ e = 'E' then
      let (negative, ds) := match rest with
        | '-' :: ds => (true, ds)
        | '+' :: ds => (false, ds)
        | ds => (false, ds)
      if ds.isEmpty || !ds.all isAsciiDigit then none
      else some (if negative then -(digitsToNat ds : Int) else digitsToNat ds)
    else none

/-- A numeral without its sign. The point may open or close the digits, but
there is at least one digit. -/
def readUnsigned? (negative : Bool) (cs : List Char) : Option Decimal :=
  let whole := cs.takeWhile isAsciiDigit
  let rest := cs.dropWhile isAsciiDigit
  let (fraction, rest) := match rest with
    | '.' :: more => (more.takeWhile isAsciiDigit, more.dropWhile isAsciiDigit)
    | more => ([], more)
  if whole.isEmpty && fraction.isEmpty then none
  else (readExponent? rest).map fun e =>
    ⟨negative, digitsToNat (whole ++ fraction), e - (fraction.length : Int)⟩

/-- A numeral with an optional sign. -/
def read? : List Char → Option Decimal
  | '-' :: cs => readUnsigned? true cs
  | '+' :: cs => readUnsigned? false cs
  | cs => readUnsigned? false cs

/-- The number nearest to a decimal value, or `none` past the range. The two
early answers only keep the powers small: `10 ^ 309` is past the range, and
`10 ^ (-324)` is less than half the least magnitude. -/
def toBinary64? (d : Decimal) : Option Binary64 :=
  let top : Int := width d.digits + d.exponent
  if d.digits = 0 ∨ top < -323 then some (.ofCode d.negative 0)
  else if 309 < top then none
  else if 0 ≤ d.exponent then
    Binary64.ofUnits? d.negative ((d.digits * Nat.pow 10 d.exponent.toNat) <<< 1074) 1
  else
    Binary64.ofUnits? d.negative (d.digits <<< 1074) (Nat.pow 10 (-d.exponent).toNat)

end Decimal

end Runbook
