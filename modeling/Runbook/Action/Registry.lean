/-
The actions of one run, found by name or by alias.

No key belongs to two actions; `Registry.build` refuses a list in which one
does.
-/
import Runbook.Action
import Runbook.Schema.Describe

namespace Runbook

/-- A list of actions no two of which have a key in common. -/
structure Registry where
  actions : List Action
  separate : actions.Pairwise fun a b => ∀ key ∈ a.keys, key ∉ b.keys

namespace Registry

def empty : Registry := ⟨[], .nil⟩

/-- The action with a name or an alias. -/
def get? (r : Registry) (key : String) : Option Action :=
  r.actions.find? fun a => a.keys.contains key

/-- The first key of an action that another action has, and that action. -/
def clash? (r : Registry) (a : Action) : Option (String × Action) :=
  a.keys.findSome? fun key => (r.get? key).map fun owner => (key, owner)

theorem not_mem_keys_of_clash?_eq_none {r : Registry} {a : Action} (h : r.clash? a = none) :
    ∀ b ∈ r.actions, ∀ key ∈ b.keys, key ∉ a.keys := by
  intro b hb key hkey hmem
  have hnone := List.findSome?_eq_none_iff.mp h key hmem
  simp only [Option.map_eq_none_iff, get?, List.find?_eq_none] at hnone
  exact hnone b hb (by simpa using hkey)

/-- The registry with one more action at the end. -/
def add (r : Registry) (a : Action) : Except Error Registry :=
  match h : r.clash? a with
  | some (key, owner) => .error (.duplicateAction key owner.name a.name)
  | none => .ok {
      actions := r.actions ++ [a]
      separate := by
        refine List.pairwise_append.mpr ⟨r.separate, by simp, fun b hb c hc => ?_⟩
        rw [List.mem_singleton.mp hc]
        exact not_mem_keys_of_clash?_eq_none h b hb }

/-- The registry of a list of actions, in their order. -/
def build (actions : List Action) : Except Error Registry := actions.foldlM add empty

/-- The action with a key, or the error that there is none. -/
def require (r : Registry) (key : String) : Except Error Action :=
  match r.get? key with
  | some a => .ok a
  | none => .error (.actionNotFound key)

/-- The actions a step names, each with the key by which it does. -/
def matching (r : Registry) (item : Object) : List (Action × String) :=
  r.actions.filterMap fun a =>
    (a.keys.find? fun key => Fields.contains key item).map fun key => (a, key)

/-- How an invocation ends: with an error, or as the call does. -/
def invoke (r : Registry) (device : Action → Value → Outcome Value) (screen : Option Screen)
    (key : String) (param : Value) : Except Error (Outcome Value) := do
  let a ← r.require key
  match a.normalize param with
  | .error e => .error (.validation e)
  | .ok v => .ok (a.call (device a) screen v)

/-- The description of an action for tool listings. -/
def describeAction (a : Action) : Value := .obj (
  [("name", .str a.name)] ++
  (a.interfaceAlias.toList.map fun s => ("interfaceAlias", .str s)) ++
  [("description", .str a.description)] ++
  (a.schema.toList.map fun s => ("paramSchema", s.describe)))

/-- The descriptions of all actions. -/
def describe (r : Registry) : Value := .arr (r.actions.map describeAction)

end Registry

end Runbook
