/-
The shortest decimal text of a number.

A text names the number if it lies among the values that round to it.
`shortest` looks for the fewest digits with which that happens: on each
decimal grid, from one digit upwards, it tries the two neighbours of the
value, and of two that both serve it takes the nearer, or the even one when
they are equally near. `Layout` then says how the digits are written.
-/
import Runbook.Binary64.Decimal

namespace Runbook

namespace Binary64

/-- The digits `d` and the exponent `e` of the value `d * 10 ^ e`. -/
structure Digits where
  digits : Nat
  exponent : Int

/-- Twice the endpoints of the interval of magnitudes that round to a code,
in units of `2^-1074`. -/
def interval (code : Nat) : Nat × Nat :=
  (unitsOfCode (code - 1) + unitsOfCode code, unitsOfCode code + unitsOfCode (code + 1))

/-- The ends of the interval round to an even code. -/
def endsIncluded (code : Nat) : Bool := code % 2 == 0

/-- The exponent `e` with `10 ^ (e - 1) ≤ value < 10 ^ e`, for a magnitude
other than zero. Multiplied by `10 ^ 400` every magnitude has a whole part. -/
def decimalExponent (units : Nat) : Int :=
  (Decimal.width ((units * Nat.pow 10 400) >>> 1074) : Int) - 400

/-- The neighbour of the value on the grid `10 ^ exponent` that names the
code, if one does. -/
def onGrid? (code : Nat) (exponent : Int) : Option Nat :=
  let up := Nat.pow 10 (-exponent).toNat
  let grid := Nat.pow 10 exponent.toNat <<< 1075
  let value := 2 * unitsOfCode code * up
  let low := (interval code).1 * up
  let high := (interval code).2 * up
  let names (k : Nat) : Bool :=
    if endsIncluded code then decide (low ≤ k * grid) && decide (k * grid ≤ high)
    else decide (low < k * grid) && decide (k * grid < high)
  let below := value / grid
  match names below, names (below + 1) with
  | false, false => none
  | true, false => some below
  | false, true => some (below + 1)
  | true, true =>
    let sum := (2 * below + 1) * grid
    if 2 * value < sum then some below
    else if sum < 2 * value then some (below + 1)
    else some (below + below % 2)

/-- The first grid that has a name for the code, from `count` digits upwards. -/
def search (code : Nat) (top : Int) : Nat → Nat → Digits
  | 0, count => ⟨unitsOfCode code, top - count⟩
  | tries + 1, count =>
    match onGrid? code (top - count) with
    | some k => ⟨k, top - count⟩
    | none => search code top tries (count + 1)

/-- The shortest name of a magnitude other than zero. Seventeen digits always serve. -/
def shortest (code : Nat) : Digits :=
  search code (decimalExponent (unitsOfCode code)) 17 1

/-! ## Layout -/

/-- Where positional notation is used. The exponent compared is that of the
leading digit. -/
structure Layout where
  least : Int
  most : Int

/-- Numbers from `1e-5` up to, but not including, `1e16` are written out. -/
def layout : Layout := ⟨-5, 15⟩

/-- The text of a digit sequence without trailing zeros, whose first digit
has weight `10 ^ lead`. Written out, it has a digit on each side of the
point; otherwise the exponent follows with its sign. -/
def Layout.write (l : Layout) (ds : List Char) (lead : Int) : List Char :=
  if l.least ≤ lead ∧ lead ≤ l.most then
    if lead < 0 then
      '0' :: '.' :: (List.replicate (-lead - 1).toNat '0' ++ ds)
    else
      let whole := ds.take (lead.toNat + 1)
      let fraction := ds.drop (lead.toNat + 1)
      whole ++ List.replicate (lead.toNat + 1 - ds.length) '0' ++
        '.' :: (if fraction.isEmpty then ['0'] else fraction)
  else
    let mantissa := match ds with
      | d :: e :: rest => d :: '.' :: e :: rest
      | short => short
    mantissa ++ 'e' :: (if lead < 0 then '-' else '+') :: Nat.toDigits 10 lead.natAbs

/-- The digits of a name, without the zeros at its end. -/
def Digits.text (d : Digits) : List Char :=
  ((Nat.toDigits 10 d.digits).reverse.dropWhile (· == '0')).reverse

/-- The weight of the leading digit of a name, as a power of ten. -/
def Digits.lead (d : Digits) : Int := (Decimal.width d.digits : Int) + d.exponent - 1

/-- The shortest decimal text that reads back to the number. -/
def text (x : Binary64) : String :=
  let magnitude := if x.code = 0 then ['0', '.', '0'] else
    let d := shortest x.code
    layout.write d.text d.lead
  String.ofList (if x.negative then '-' :: magnitude else magnitude)

end Binary64

end Runbook
