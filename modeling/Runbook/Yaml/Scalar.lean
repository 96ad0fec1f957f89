/-
What the scalars of a YAML text stand for.

A plain scalar is null, a boolean, an integer or a real number if it is
spelt as one, and text otherwise. Digits after a leading zero are text. A
quoted scalar is text unless a tag asks for something else.
-/
import Runbook.Value
import Runbook.Yaml.Node

namespace Runbook.Yaml

namespace Scalar

def isNull (s : String) : Bool := ["null", "Null", "NULL", "~"].contains s

def bool? (s : String) : Option Bool :=
  if ["true", "True", "TRUE"].contains s then some true
  else if ["false", "False", "FALSE"].contains s then some false
  else none

/-! ## Integers -/

/-- The value of a digit in bases up to sixteen. -/
def digit? (base : Nat) (c : Char) : Option Nat :=
  let value :=
    if '0' ≤ c ∧ c ≤ '9' then some (c.toNat - '0'.toNat)
    else if 'a' ≤ c ∧ c ≤ 'f' then some (c.toNat - 'a'.toNat + 10)
    else if 'A' ≤ c ∧ c ≤ 'F' then some (c.toNat - 'A'.toNat + 10)
    else none
  value.filter fun d => decide (d < base)

/-- The natural number written by one or more digits. -/
def natural? (base : Nat) : List Char → Option Nat
  | [] => none
  | c :: cs => (c :: cs).foldlM (fun n c => (digit? base c).map (base * n + ·)) 0

/-- Whether the text is digits after a leading zero, with or without a sign. -/
def hasLeadingZero (cs : List Char) : Bool :=
  let digits := match cs with
    | '-' :: rest => rest
    | '+' :: rest => rest
    | _ => cs
  match digits with
  | '0' :: d :: rest => (d :: rest).all isAsciiDigit
  | _ => false

/-- The natural number after an optional mark of its base. -/
def marked? (cs : List Char) : Option Nat :=
  match cs with
  | '0' :: 'x' :: digits => natural? 16 digits
  | '0' :: 'o' :: digits => natural? 8 digits
  | '0' :: 'b' :: digits => natural? 2 digits
  | digits => natural? 10 digits

/-- The integer a text spells: a sign, a mark of the base, digits. -/
def integer? (cs : List Char) : Option Int :=
  if hasLeadingZero cs then none
  else match cs with
    | '-' :: rest => (marked? rest).map fun n => -(n : Int)
    | '+' :: rest => (marked? rest).map fun n => (n : Int)
    | rest => (marked? rest).map fun n => (n : Int)

/-- What an integer is read as. One that 128 bits hold but 64 do not is
refused; a longer one is none. -/
inductive IntegerReading where
  | number (n : Number)
  | refused
  | none

/-- Whether 128 bits hold an integer, with a sign or without. -/
def fits128 (i : Int) : Bool :=
  decide (-0x80000000000000000000000000000000 ≤ i) &&
  decide (i < 0x100000000000000000000000000000000)

def readInteger (cs : List Char) : IntegerReading :=
  match integer? cs with
  | some i =>
    match Number.ofInt? i with
    | some n => .number n
    | Option.none => if fits128 i then .refused else .none
  | Option.none => .none

/-! ## Real numbers -/

/-- The value of a text that spells a real number. Infinities and the result
of no computation have no number and are null. -/
def real? (s : String) : Option Value :=
  if [".inf", ".Inf", ".INF", "+.inf", "+.Inf", "+.INF", "-.inf", "-.Inf", "-.INF", ".nan", ".NaN",
      ".NAN"].contains s then some .null
  else
    let cs := match s.toList with
      | '+' :: '+' :: _ | '+' :: '-' :: _ => []
      | cs => cs
    ((Decimal.read? cs).bind Decimal.toBinary64?).map .ofReal

/-! ## Scalars -/

/-- The value of a plain scalar without tag. -/
def plain? (s : String) : Option Value :=
  if s.isEmpty || isNull s then some .null
  else match bool? s with
    | some b => some (.bool b)
    | none =>
      match readInteger s.toList with
      | .number n => some (.num n)
      | .refused => none
      | .none =>
        if hasLeadingZero s.toList then some (.str s)
        else some ((real? s).getD (.str s))

/-- The value of a scalar without tag. -/
def untagged? (style : ScalarStyle) (s : String) : Option Value :=
  match style with
  | .plain => plain? s
  | .quoted => some (.str s)

/-- The standard tag with a name. -/
def standardTag (name : String) : Octets := Octets.ofText ("tag:yaml.org,2002:" ++ name)

/-- The tags of a text's own kind: an exclamation mark and then text, if any. -/
def isOwnTag : Octets → Bool
  | first :: rest => first == 0x21 && Octets.areText rest
  | [] => false

/-- The value of a scalar. With a tag of the text's own kind it has none. A
tag that begins like one, but goes on with octets of no text, says nothing. -/
def value? (tag : Option Octets) (style : ScalarStyle) (s : String) : Option Value :=
  match tag with
  | none => untagged? style s
  | some tag =>
    if isOwnTag tag then none
    else if tag == standardTag "bool" then (bool? s).map .bool
    else if tag == standardTag "int" then
      match readInteger s.toList with
      | .number n => some (.num n)
      | _ => none
    else if tag == standardTag "float" then real? s
    else if tag == standardTag "null" then if isNull s then some .null else none
    else if tag.head? == some 0x21 then untagged? style s
    else some (.str s)

end Scalar

end Runbook.Yaml
