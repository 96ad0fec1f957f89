/-
A path is there for the errors.

Whether a check succeeds, and with what, is the same under every path (`parse_toOption`); so a
check that has been made under one path need not be made again under another (`parse_ok_at`).
-/
import Runbook.Schema.Parse

namespace Runbook

theorem toOption_bind {ε α β : Type} (x : Except ε α) (f : α → Except ε β) :
    (x >>= f).toOption = x.toOption.bind fun a => (f a).toOption := by
  cases x <;> rfl

theorem toOption_map {ε α β : Type} (x : Except ε α) (f : α → β) :
    (x.map f).toOption = x.toOption.map f := by
  cases x <;> rfl

namespace Schema

theorem present_toOption {check check' : Value → Parsed Value} (v : Option Value) (p q : String)
    (h : ∀ x, (check x).toOption = (check' x).toOption) :
    (present p check v).toOption = (present q check' v).toOption := by
  cases v with
  | none => rfl
  | some x => simp only [present, toOption_map, h x]

theorem parseItems_toOption {check : Option Value → String → Parsed (Option Value)}
    (h : ∀ v p q, (check v p).toOption = (check v q).toOption) :
    ∀ (vs : List Value) (p q : String) (index : Nat),
      (parseItems check p vs index).toOption = (parseItems check q vs index).toOption
  | [], _, _, _ => rfl
  | v :: vs, p, q, index => by
    have hrest := parseItems_toOption h vs p q (index + 1)
    simp only [parseItems, toOption_bind, h (some v) (itemPath p index) (itemPath q index), hrest]

mutual

/-- A check succeeds with the same under every path. -/
theorem parse_toOption : ∀ (s : Schema) (v : Option Value) (p q : String),
    (s.parse v p).toOption = (s.parse v q).toOption
  | .optional inner, v, p, q => by
    simp only [parse_optional]
    split
    · rfl
    · rfl
    · exact parse_toOption inner _ p q
  | .nullable inner, v, p, q => by
    simp only [parse_nullable]
    split
    · rfl
    · exact parse_toOption inner _ p q
  | .withDefault inner d, v, p, q => parse_toOption inner (v.or (some d)) p q
  | .preprocessed inner step, v, p, q => parse_toOption inner (v.map step) p q
  | .pipe first second, v, p, q => by
    have hsecond := fun w => parse_toOption second w p q
    simp only [parse_pipe, toOption_bind, parse_toOption first v p q, hsecond]
  | .union members, v, p, q => parseMembers_toOption members v p q _ _
  | .array item, v, p, q => by
    simp only [parse_array]
    refine present_toOption v p q fun x => ?_
    cases x with
    | arr vs => simp only [toOption_map, parseItems_toOption (parse_toOption item) vs p q]
    | _ => rfl
  | .object fields, v, p, q => by
    simp only [parse_object]
    refine present_toOption v p q fun x => ?_
    cases x with
    | obj fs => simp only [toOption_map, parseFields_toOption fields fs p q]
    | _ => rfl
  | .string, v, p, q | .number, v, p, q | .boolean, v, p, q | .any, v, p, q
  | .locator, v, p, q => by
    refine present_toOption v p q fun x => ?_
    cases x <;> rfl
  | .integer, v, p, q => by
    refine present_toOption v p q fun x => ?_
    split <;> rfl
  | .enumeration names, v, p, q => by
    refine present_toOption v p q fun x => ?_
    split
    · split <;> rfl
    · rfl

theorem parseMembers_toOption : ∀ (members : List Schema) (v : Option Value) (p q : String)
    (e e' : ParamError),
    (parseMembers members v p e).toOption = (parseMembers members v q e').toOption
  | [], _, _, _, _, _ => rfl
  | s :: rest, v, p, q, e, e' => by
    have hs := parse_toOption s v p q
    simp only [parseMembers_cons]
    cases hp : s.parse v p with
    | ok w =>
      cases hq : s.parse v q with
      | ok w' => rwa [hp, hq] at hs
      | error e' => rw [hp, hq] at hs; cases hs
    | error e =>
      cases hq : s.parse v q with
      | ok w' => rw [hp, hq] at hs; cases hs
      | error e' => exact parseMembers_toOption rest v p q e e'

theorem parseFields_toOption : ∀ (fields : List Field) (fs : Object) (p q : String) (out : Object),
    (parseFields fields fs p out).toOption = (parseFields fields fs q out).toOption
  | [], _, _, _, _ => rfl
  | .mk name schema desc loc :: rest, fs, p, q, out => by
    have hfield := parse_toOption schema (Fields.get? name fs) (fieldPath p name) (fieldPath q name)
    have hrest := parseFields_toOption rest fs p q
    simp only [parseFields, toOption_bind, hfield]
    congr 1
    funext w
    cases w <;> exact hrest _

end

variable {s : Schema} {v w : Option Value} {p : String}

theorem parse_ok_at (h : s.parse v p = .ok w) (q : String) : s.parse v q = .ok w := by
  have hsame := parse_toOption s v q p
  rw [h] at hsame
  cases hq : s.parse v q with
  | ok w' =>
    rw [hq] at hsame
    cases hsame
    rfl
  | error e =>
    rw [hq] at hsame
    cases hsame

end Schema

end Runbook
