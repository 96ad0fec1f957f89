/-
The values scripts are made of: JSON data with ordered objects and three
kinds of numbers.

A natural number, a negative integer and a real number are different values
even when they are equal in size; `Value.sameAs` is the equality the program
itself uses, which ignores the order of an object's entries and takes the
two zeros for one.
-/
import Runbook.Fields
import Runbook.Binary64.Shortest

namespace Runbook

/-- A number: a natural number of 64 bits, a negative integer down to `-2^63`
(`negSucc n` is `-(n + 1)`), or a real number. -/
inductive Number where
  | nat (n : UInt64)
  | negSucc (n : Fin 0x8000000000000000)
  | real (x : Binary64)
deriving DecidableEq

namespace Number

/-- The number of an integer that one of the two integer kinds can hold. -/
def ofInt? (i : Int) : Option Number :=
  if 0 ≤ i then
    if i < 0x10000000000000000 then some (.nat (UInt64.ofNat i.toNat)) else none
  else
    let n := (-i - 1).toNat
    if h : n < 0x8000000000000000 then some (.negSucc ⟨n, h⟩) else none

/-- The nearest real number. -/
def toBinary64 : Number → Binary64
  | .nat n => .ofNat n.toNat
  | .negSucc n => .ofInt (Int.negSucc n)
  | .real x => x

/-- The decimal text of the number. -/
def text : Number → String
  | .nat n => toString n.toNat
  | .negSucc n => "-" ++ toString (n.val + 1)
  | .real x => x.text

/-- Equality within one kind; the two real zeros are equal. -/
def sameAs : Number → Number → Bool
  | .nat a, .nat b => a == b
  | .negSucc a, .negSucc b => a == b
  | .real x, .real y => x.sameAs y
  | _, _ => false

end Number

/-- A value. The keys of an object are distinct wherever the program builds one. -/
inductive Value where
  | null
  | bool (b : Bool)
  | num (n : Number)
  | str (s : String)
  | arr (items : List Value)
  | obj (fields : List (String × Value))
deriving Inhabited

/-- The entries of an object. -/
abbrev Object := Fields Value

namespace Value

/-- A small natural number as a value. -/
def ofNat (n : Nat) : Value := .num (.nat (UInt64.ofNat n))

/-- A real number as a value. -/
def ofReal (x : Binary64) : Value := .num (.real x)

def isNull : Value → Bool
  | .null => true
  | _ => false

/-- The text of a string value. -/
def asText? : Value → Option String
  | .str s => some s
  | _ => none

def asBool? : Value → Option Bool
  | .bool b => some b
  | _ => none

def asObject? : Value → Option Object
  | .obj fs => some fs
  | _ => none

def asItems? : Value → Option (List Value)
  | .arr vs => some vs
  | _ => none

/-- The real number nearest to a numeric value. -/
def asReal? : Value → Option Binary64
  | .num n => some n.toBinary64
  | _ => none

/-- The entry of an object under a key; other values have no entries. -/
def field? (key : String) : Value → Option Value
  | .obj fs => Fields.get? key fs
  | _ => none

/-- The value of an optional one, `null` when it is absent. -/
def ofOption : Option Value → Value
  | some v => v
  | none => .null

mutual

/-- Equality of values. Objects are equal if they have equally many entries
and every entry of the first has an equal one in the second. -/
def sameAs : Value → Value → Bool
  | .null, .null => true
  | .bool a, .bool b => a == b
  | .num m, .num n => m.sameAs n
  | .str a, .str b => a == b
  | .arr as, .arr bs => sameItems as bs
  | .obj fs, .obj gs => fs.length == gs.length && sameEntries fs gs
  | _, _ => false

/-- Equality of lists, item by item. -/
def sameItems : List Value → List Value → Bool
  | [], [] => true
  | a :: as, b :: bs => sameAs a b && sameItems as bs
  | _, _ => false

/-- Whether every entry has an equal one among the others. -/
def sameEntries : List (String × Value) → Object → Bool
  | [], _ => true
  | (k, v) :: rest, others =>
    (match Fields.get? k others with
      | some w => sameAs v w
      | none => false) && sameEntries rest others

end

end Value

end Runbook
