/-
The order of an object's entries is nothing to a schema.

Let a schema apply no function but the one that writes scalars out. Then two
objects with the same entries in another order are both accepted, with
results that differ in the order of entries at most, or both refused for
the same reason (`parse_reordered`, `normalize_reordered`). On the way: a
schema that accepts an object answers an object, whatever it is made of.
-/
import Runbook.Proofs.Schema.Accepted
import Runbook.Proofs.Schema.Steps

namespace Runbook

/-- Two outcomes agree: both are the same error, or both are values that are
related. -/
inductive Agree {ε α β : Type} (R : α → β → Prop) : Except ε α → Except ε β → Prop
  | ok {a : α} {b : β} (h : R a b) : Agree R (.ok a) (.ok b)
  | error (e : ε) : Agree R (.error e) (.error e)

namespace Agree

variable {ε α β γ δ : Type} {R : α → β → Prop} {S : γ → δ → Prop} {x : Except ε α} {y : Except ε β}

theorem refl {R : α → α → Prop} (hR : ∀ a, R a a) (x : Except ε α) : Agree R x x := by
  cases x with
  | ok a => exact .ok (hR a)
  | error e => exact .error e

theorem bind {f : α → Except ε γ} {g : β → Except ε δ} (h : Agree R x y)
    (hf : ∀ a b, R a b → Agree S (f a) (g b)) : Agree S (x >>= f) (y >>= g) := by
  cases h with
  | ok h => exact hf _ _ h
  | error e => exact .error e

theorem map {f : α → γ} {g : β → δ} (h : Agree R x y) (hf : ∀ a b, R a b → S (f a) (g b)) :
    Agree S (x.map f) (y.map g) := by
  cases h with
  | ok h => exact .ok (hf _ _ h)
  | error e => exact .error e

end Agree

namespace Schema

open Fields (Reordered Distinct)

/-- Both are there and are objects, with related entries. -/
inductive Objects (R : Object → Object → Prop) : Option Value → Option Value → Prop
  | mk {fs gs : Object} (h : R fs gs) : Objects R (some (.obj fs)) (some (.obj gs))

/-! ## Fields -/

/-- Fields are read by their names only. -/
theorem parseFields_congr {fs gs : Object} (h : ∀ key, Fields.get? key fs = Fields.get? key gs)
    (path : String) (fields : List Field) (out : Object) :
    parseFields fields fs path out = parseFields fields gs path out :=
  parseFields_congr_of_parse fun f _ => by rw [h f.name]

theorem parseFields_reordered {fs gs : Object} (h : Reordered fs gs) (path : String)
    (fields : List Field) :
    Agree Reordered (parseFields fields fs path []) (parseFields fields gs path []) := by
  rw [← parseFields_congr h.get?_eq]
  cases hout : parseFields fields fs path [] with
  | error e => exact .error e
  | ok out => exact .ok (.refl (parseFields_distinct Fields.distinct_nil hout))

/-! ## Schemas -/

mutual

theorem parse_reordered : ∀ (s : Schema), s.OnlyStringifies → ∀ {fs gs : Object},
    Reordered fs gs → ∀ path,
    Agree (Objects Reordered) (s.parse (some (.obj fs)) path) (s.parse (some (.obj gs)) path)
  | .optional inner, hs, _, _, h, path => by
    simpa only [parse_optional] using parse_reordered inner hs h path
  | .nullable inner, hs, _, _, h, path => by
    simpa only [parse_nullable] using parse_reordered inner hs h path
  | .withDefault inner _, hs, _, _, h, path => by
    simpa only [parse_withDefault, Option.some_or] using parse_reordered inner hs h path
  | .preprocessed inner _, ⟨hstep, hs⟩, _, _, h, path => by
    subst hstep
    have hinner := parse_reordered inner hs h path
    simpa only [parse_preprocessed, Option.map_some, stringify] using hinner
  | .pipe first second, hs, _, _, h, path => by
    simp only [parse_pipe]
    refine (parse_reordered first hs.1 h path).bind fun v w hvw => ?_
    cases hvw with
    | mk h' => exact parse_reordered second hs.2 h' path
  | .union members, hs, _, _, h, path => by
    simp only [parse_union]
    exact parseMembers_reordered members hs h path _
  | .object fields, _, _, _, h, path => by
    simp only [parse_object, present]
    refine (Agree.map (parseFields_reordered h path fields) fun _ _ h' => ?_).map fun _ _ h' => h'
    exact .mk h'
  | .any, _, _, _, h, path => by simp only [parse_any, present]; exact .ok (.mk h)
  | .locator, _, _, _, h, path => by simp only [parse_locator, present]; exact .ok (.mk h)
  | .string, _, _, _, _, path => by simp only [parse_string, present]; exact .error _
  | .number, _, _, _, _, path => by simp only [parse_number, present]; exact .error _
  | .integer, _, _, _, _, path => by simp only [parse_integer, present]; exact .error _
  | .boolean, _, _, _, _, path => by simp only [parse_boolean, present]; exact .error _
  | .enumeration _, _, _, _, _, path => by simp only [parse_enumeration, present]; exact .error _
  | .array _, _, _, _, _, path => by simp only [parse_array, present]; exact .error _

theorem parseMembers_reordered : ∀ (members : List Schema),
    MembersEachStep (· = stringify) members → ∀ {fs gs : Object}, Reordered fs gs → ∀ path last,
    Agree (Objects Reordered) (parseMembers members (some (.obj fs)) path last)
      (parseMembers members (some (.obj gs)) path last)
  | [], _, _, _, _, path, last => by simp only [parseMembers_nil]; exact .error last
  | s :: rest, hs, fs, gs, h, path, last => by
    have hmember := parse_reordered s hs.1 h path
    simp only [parseMembers_cons]
    generalize s.parse (some (.obj fs)) path = x at hmember
    generalize s.parse (some (.obj gs)) path = y at hmember
    cases hmember with
    | ok h' => exact .ok h'
    | error e => exact parseMembers_reordered rest hs.2 h path e

end

/-- A schema that accepts an object answers an object. -/
theorem parse_distinct {s : Schema} {fs : Object} {path : String} {w : Option Value}
    (hs : s.OnlyStringifies) (hd : Distinct fs) (h : s.parse (some (.obj fs)) path = .ok w) :
    ∃ gs, w = some (.obj gs) ∧ Distinct gs := by
  have hself := parse_reordered s hs (.refl hd) path
  rw [h] at hself
  cases hself with
  | ok hobjects =>
    cases hobjects with
    | mk hr => exact ⟨_, rfl, hr.distinct⟩

/-! ## Normalization -/

theorem normalize_reordered {s : Schema} (hs : s.OnlyStringifies) {fs gs : Object}
    (h : Reordered fs gs) :
    Agree Value.Reordered (s.normalize (.obj fs)) (s.normalize (.obj gs)) := by
  rw [normalize_obj, normalize_obj, ← targets_congr fun key _ => h.get?_eq key, substitute_eq_merge,
    substitute_eq_merge]
  refine (parse_reordered s hs (h.merge _) "").map fun v w hvw => ?_
  cases hvw with
  | mk h' => exact .obj (h'.merge _)

end Schema

end Runbook
