/-
The functions of a schema.

A layer of a schema may apply any function before the layers below it check a value. What holds of a
schema whatever its functions are needs no word about them; where they do matter, a theorem asks
something of each (`EachStep`). The actions of the catalogue apply one function only, that which
writes scalars out (`OnlyStringifies`), and it does not mind the order of entries
(`orderFree_stringify`).
-/
import Runbook.Action.Registry
import Runbook.Proofs.Value

namespace Runbook

namespace Schema

mutual

/-- Every function that the schema applies, at whatever depth, has a property. -/
def EachStep (P : (Value → Value) → Prop) : Schema → Prop
  | .preprocessed inner step => P step ∧ inner.EachStep P
  | .array inner | .optional inner | .nullable inner | .withDefault inner _ => inner.EachStep P
  | .pipe first second => first.EachStep P ∧ second.EachStep P
  | .union members => MembersEachStep P members
  | .object fields => FieldsEachStep P fields
  | _ => True

def MembersEachStep (P : (Value → Value) → Prop) : List Schema → Prop
  | [] => True
  | s :: rest => s.EachStep P ∧ MembersEachStep P rest

def FieldsEachStep (P : (Value → Value) → Prop) : List Field → Prop
  | [] => True
  | .mk _ schema _ _ :: rest => schema.EachStep P ∧ FieldsEachStep P rest

end

/-- The schema applies no function but the one that writes scalars out. -/
def OnlyStringifies (s : Schema) : Prop := s.EachStep (· = stringify)

/-- No function of the schema minds the order of entries. -/
def IsOrderFree (s : Schema) : Prop := s.EachStep Value.OrderFree

theorem orderFree_stringify : Value.OrderFree stringify := by
  intro v w h
  cases h with
  | refl => exact .refl _
  | arr h => exact .arr h
  | obj hf hg h => exact .obj hf hg h

variable {P Q : (Value → Value) → Prop}

mutual

theorem EachStep.imp (hPQ : ∀ step, P step → Q step) : ∀ {s : Schema}, s.EachStep P → s.EachStep Q
  | .preprocessed _ step, h => ⟨hPQ step h.1, EachStep.imp hPQ h.2⟩
  | .array inner, h | .optional inner, h | .nullable inner, h | .withDefault inner _, h =>
    EachStep.imp (s := inner) hPQ h
  | .pipe _ _, h => ⟨EachStep.imp hPQ h.1, EachStep.imp hPQ h.2⟩
  | .union _, h => MembersEachStep.imp hPQ h
  | .object _, h => FieldsEachStep.imp hPQ h
  | .string, _ | .number, _ | .integer, _ | .boolean, _ | .any, _ | .locator, _
  | .enumeration _, _ => trivial

theorem MembersEachStep.imp (hPQ : ∀ step, P step → Q step) : ∀ {members : List Schema},
    MembersEachStep P members → MembersEachStep Q members
  | [], _ => trivial
  | _ :: _, h => ⟨EachStep.imp hPQ h.1, MembersEachStep.imp hPQ h.2⟩

theorem FieldsEachStep.imp (hPQ : ∀ step, P step → Q step) : ∀ {fields : List Field},
    FieldsEachStep P fields → FieldsEachStep Q fields
  | [], _ => trivial
  | .mk _ _ _ _ :: _, h => ⟨EachStep.imp hPQ h.1, FieldsEachStep.imp hPQ h.2⟩

end

theorem OnlyStringifies.isOrderFree {s : Schema} (h : s.OnlyStringifies) : s.IsOrderFree :=
  EachStep.imp (fun _ hstep => hstep ▸ orderFree_stringify) h

/-- The functions of the fields are among those of the schema around them. -/
theorem OnlyStringifies.object {fields : List Field} : ∀ {s : Schema}, s.OnlyStringifies →
    s.objectFields? = some fields → (Schema.object fields).OnlyStringifies
  | .object _, hs, h => by
    cases h
    exact hs
  | .optional inner, hs, h | .nullable inner, hs, h | .withDefault inner _, hs, h =>
    OnlyStringifies.object (s := inner) hs h
  | .preprocessed inner _, hs, h => OnlyStringifies.object (s := inner) hs.2 h
  | .pipe first _, hs, h => OnlyStringifies.object (s := first) hs.1 h

end Schema

theorem StandardAction.onlyStringifies (a : StandardAction) : a.schema.OnlyStringifies := by
  cases a <;> simp [schema, targetSchema, directionSchema, Schema.OnlyStringifies, Schema.EachStep,
    Schema.FieldsEachStep, Field.target, Field.describe, Field.plain, Field.optional, Field.name,
    Field.schema, Field.description, Field.locatable]

namespace Action

def OnlyStringifies (a : Action) : Prop := ∀ s, a.schema = some s → s.OnlyStringifies

def IsOrderFree (a : Action) : Prop := ∀ s, a.schema = some s → s.IsOrderFree

theorem onlyStringifies_standard (a : StandardAction) : (Action.standard a).OnlyStringifies := by
  rintro _ ⟨⟩
  exact a.onlyStringifies

end Action

/-- No action of the registry applies a function but the one that writes scalars out. -/
def Registry.OnlyStringifies (registry : Registry) : Prop :=
  ∀ a ∈ registry.actions, a.OnlyStringifies

end Runbook
