/-
The results of a run: values under names, and under numbers for the steps
that give none.

If results go to a file, the file is written anew after every change. A
write that fails is reported, but the value stays recorded.
-/
import Runbook.Error

namespace Runbook

/-- What becomes of the results while they are collected. -/
inductive Sink where
  | memory
  /-- Written to a file, which takes some of the attempts to write it. -/
  | file (takes : Nat → Bool)

/-- Results as far as they are collected. -/
structure Results where
  sink : Sink
  /-- In the order of their keys' first use. -/
  values : Object := []
  /-- How many of them came without a name. -/
  unnamed : Nat := 0
  /-- How often a write was tried. -/
  attempts : Nat := 0
  /-- The text of the file, once there is one. -/
  written : Option String := none

namespace Results

/-- The key of the next result. -/
def keyFor (r : Results) (name : Option String) : String := name.getD (toString r.unnamed)

/-- The results with one more value, not yet written. -/
def put (r : Results) (name : Option String) (value : Value) : Results :=
  { r with
    values := Fields.insert (r.keyFor name) value r.values
    unnamed := if name.isNone then r.unnamed + 1 else r.unnamed }

/-- The text of all results, as the file has it. -/
def text (r : Results) : String := (Value.obj r.values).pretty

/-- Writes the file, if there is to be one. -/
def save (r : Results) : Results × Except Error Unit :=
  match r.sink with
  | .memory => (r, .ok ())
  | .file takes =>
    let tried := { r with attempts := r.attempts + 1 }
    if takes r.attempts then ({ tried with written := some r.text }, .ok ())
    else (tried, .error .io)

@[simp] theorem save_values (r : Results) : r.save.1.values = r.values := by
  unfold save
  split
  · rfl
  · split <;> rfl

@[simp] theorem save_unnamed (r : Results) : r.save.1.unnamed = r.unnamed := by
  unfold save
  split
  · rfl
  · split <;> rfl

@[simp] theorem save_sink (r : Results) : r.save.1.sink = r.sink := by
  unfold save
  split
  · rfl
  · split <;> rfl

/-- Whether recording a value replaces an earlier one. -/
def replaces (r : Results) (name : Option String) : Bool :=
  Fields.contains (r.keyFor name) r.values

/-- The warnings of recording a value. -/
def warnings (r : Results) (name : Option String) : List Warning :=
  if r.replaces name then [.resultReplaced] else []

/-- Records a value under a name, or else under the next number. The key is
answered, unless writing failed. -/
def record (r : Results) (name : Option String) (value : Value) :
    Results × Except Error String :=
  let (saved, outcome) := (r.put name value).save
  (saved, outcome.map fun _ => r.keyFor name)

theorem values_record (r : Results) (name : Option String) (value : Value) :
    (r.record name value).1.values = Fields.insert (r.keyFor name) value r.values := by
  simp [record, put]

theorem unnamed_record (r : Results) (name : Option String) (value : Value) :
    (r.record name value).1.unnamed = if name.isNone then r.unnamed + 1 else r.unnamed := by
  simp [record, put]

end Results

end Runbook
