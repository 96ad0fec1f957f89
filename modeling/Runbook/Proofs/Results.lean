/-
Results, recording by recording.

What a store of results holds is decided by the recordings alone: it is their values under their
keys, a later one in the place of an earlier one (`values_after`), whatever becomes of the file.
The file lags behind while writes fail, and a write that succeeds makes up for all of them, since
it writes everything that is held (`written_record`).
-/
import Mathlib.Data.List.Induction
import Runbook.Proofs.Fields
import Runbook.Results

namespace Runbook

/-! ## Recordings -/

/-- A value to be recorded, under a name if there is one. -/
structure Recording where
  name : Option String
  value : Value

namespace Recording

def isUnnamed (x : Recording) : Bool := x.name.isNone

/-- Recordings with their keys. One without a name is numbered by those without a name that come
before it. -/
def keyed (rs : List Recording) : Object :=
  rs.mapIdx fun i x => (x.name.getD (toString ((rs.take i).countP isUnnamed)), x.value)

theorem keyed_concat (rs : List Recording) (x : Recording) :
    keyed (rs ++ [x]) = keyed rs ++ [(x.name.getD (toString (rs.countP isUnnamed)), x.value)] := by
  unfold keyed
  rw [List.mapIdx_concat, List.take_left]
  congr 1
  rw [List.mapIdx_eq_mapIdx_iff]
  intro i hi
  rw [List.take_append_of_le_length (Nat.le_of_lt hi)]

end Recording

open Recording (keyed isUnnamed)

/-- Whether a write succeeds that comes after some others. In memory there is nothing to fail. -/
def Sink.succeeds : Sink → Nat → Bool
  | .memory, _ => true
  | .file takes, n => takes n

namespace Results

/-! ## One recording -/

theorem record_outcome (r : Results) (name : Option String) (value : Value) :
    (r.record name value).2 =
      if r.sink.succeeds r.attempts then .ok (r.keyFor name) else .error .io := by
  unfold record save put
  dsimp only
  split
  · next hsink => simp only [hsink, Sink.succeeds, if_true, Except.map]
  · next takes hsink =>
    simp only [hsink, Sink.succeeds]
    split <;> rfl

theorem attempts_record {r : Results} {takes : Nat → Bool} (h : r.sink = .file takes)
    (name : Option String) (value : Value) :
    (r.record name value).1.attempts = r.attempts + 1 := by
  simp only [record, save, put, h]
  split <;> rfl

theorem sink_record (r : Results) (name : Option String) (value : Value) :
    (r.record name value).1.sink = r.sink := by
  simp only [record, save_sink, put]

/-- A file that takes a write holds everything there is then. -/
theorem written_record {r : Results} {takes : Nat → Bool} (h : r.sink = .file takes)
    (htakes : takes r.attempts = true) (name : Option String) (value : Value) :
    (r.record name value).1.written = some (r.record name value).1.text := by
  simp only [record, save, put, h, htakes, if_true, text]

/-! ## Any number of recordings -/

/-- New results after some recordings. -/
def after (sink : Sink) (rs : List Recording) : Results :=
  rs.foldl (fun r x => (r.record x.name x.value).1) { sink }

theorem after_concat (sink : Sink) (rs : List Recording) (x : Recording) :
    after sink (rs ++ [x]) = ((after sink rs).record x.name x.value).1 := by
  simp only [after, List.foldl_append, List.foldl_cons, List.foldl_nil]

/-- The next number is the count of the recordings without a name, so the numbers go up by one
whatever was recorded under names. -/
theorem unnamed_after (sink : Sink) (rs : List Recording) :
    (after sink rs).unnamed = rs.countP isUnnamed := by
  induction rs using List.reverseRecOn with
  | nil => rfl
  | append_singleton rs x ih =>
    rw [after_concat, unnamed_record, ih, List.countP_append, List.countP_singleton, isUnnamed]
    split <;> rfl

theorem keyFor_after (sink : Sink) (rs : List Recording) (name : Option String) :
    (after sink rs).keyFor name = name.getD (toString (rs.countP isUnnamed)) := by
  rw [keyFor, unnamed_after]

theorem values_after (sink : Sink) (rs : List Recording) :
    (after sink rs).values = Fields.ofEntries (keyed rs) := by
  induction rs using List.reverseRecOn with
  | nil => rfl
  | append_singleton rs x ih =>
    rw [after_concat, values_record, keyFor_after, ih, Recording.keyed_concat,
      Fields.ofEntries_concat]

theorem sink_after (sink : Sink) (rs : List Recording) : (after sink rs).sink = sink := by
  induction rs using List.reverseRecOn with
  | nil => rfl
  | append_singleton rs x ih => rw [after_concat, sink_record, ih]

theorem attempts_after (takes : Nat → Bool) (rs : List Recording) :
    (after (.file takes) rs).attempts = rs.length := by
  induction rs using List.reverseRecOn with
  | nil => rfl
  | append_singleton rs x ih =>
    rw [after_concat, attempts_record (sink_after _ _), ih, List.length_append]
    rfl

/-- Recording by recording, writes are tried in the same order. -/
theorem record_after_outcome (sink : Sink) (rs : List Recording) (x : Recording) :
    ((after sink rs).record x.name x.value).2 =
      if sink.succeeds rs.length then .ok (x.name.getD (toString (rs.countP isUnnamed)))
      else .error .io := by
  rw [record_outcome, sink_after, keyFor_after]
  cases sink with
  | memory => rfl
  | file takes => rw [attempts_after]

theorem warnings_after (sink : Sink) (rs : List Recording) (name : Option String) :
    (after sink rs).warnings name =
      if name.getD (toString (rs.countP isUnnamed)) ∈ Fields.keys (keyed rs)
      then [.resultReplaced] else [] := by
  have hmem : (after sink rs).replaces name = true ↔
      name.getD (toString (rs.countP isUnnamed)) ∈ Fields.keys (keyed rs) := by
    rw [replaces, keyFor_after, values_after, Fields.contains_iff_mem_keys, Fields.keys_ofEntries,
      List.mem_eraseDups]
  simp only [warnings, hmem]

/-- **Results, recording by recording.** After any recordings the results have the value last
recorded under each key, the keys in the order of their first use, and nothing of this depends on
what becomes of the file. One more recording is put under its name or else under the number of
those before it that had no name; it replaces a value, with a warning, if its key is one of theirs;
and its outcome is that of its own write. If that succeeds then the file has all results, however
many writes failed before. -/
theorem record_evolves (sink : Sink) (rs : List Recording) (x : Recording) :
    let held := after sink rs
    let next := after sink (rs ++ [x])
    let key := x.name.getD (toString (rs.countP isUnnamed))
    (∀ k, Fields.get? k held.values = Fields.get? k (keyed rs).reverse) ∧
      Fields.keys held.values = (Fields.keys (keyed rs)).eraseDups ∧
      held.record x.name x.value =
        (next, if sink.succeeds rs.length then .ok key else .error .io) ∧
      keyed (rs ++ [x]) = keyed rs ++ [(key, x.value)] ∧
      held.warnings x.name = (if key ∈ Fields.keys (keyed rs) then [.resultReplaced] else []) ∧
      (∀ other, (after other rs).values = held.values ∧
        (after other rs).keyFor x.name = held.keyFor x.name ∧
        (after other rs).warnings x.name = held.warnings x.name) ∧
      ∀ takes, sink = .file takes → takes rs.length = true →
        next.written = some (Value.obj next.values).pretty := by
  intro held next key
  refine ⟨fun k => ?_, ?_, ?_, Recording.keyed_concat rs x, warnings_after sink rs x.name,
    fun other => ⟨?_, ?_, ?_⟩, ?_⟩
  · rw [values_after, Fields.get?_ofEntries]
  · rw [values_after, Fields.keys_ofEntries]
  · exact Prod.ext (after_concat sink rs x).symm (record_after_outcome sink rs x)
  · rw [values_after, values_after]
  · rw [keyFor_after, keyFor_after]
  · rw [warnings_after, warnings_after]
  · rintro takes rfl htakes
    have hwritten := written_record (sink_after _ rs) ((attempts_after takes rs).symm ▸ htakes)
      x.name x.value
    rwa [← after_concat] at hwritten

/-- A number taken as a name, a write that fails, and a value recorded anew under its number. -/
theorem record_evolves_catches_up :
    let takes : Nat → Bool := fun n => n == 2
    let rs : List Recording := [⟨some "0", .ofNat 7⟩, ⟨some "a", .bool true⟩]
    let x : Recording := ⟨none, .null⟩
    takes rs.length = true ∧
      (after (.file takes) rs).written = none ∧
      (after (.file takes) rs).warnings none = [.resultReplaced] ∧
      (after (.file takes) (rs ++ [x])).written =
        some "\x7b\n  \"0\": null,\n  \"a\": true\n\x7d" := by
  intro takes rs x
  obtain ⟨-, -, -, -, hwarnings, -, hwritten⟩ := record_evolves (.file takes) rs x
  refine ⟨rfl, rfl, hwarnings.trans (by decide), (hwritten takes rfl rfl).trans ?_⟩
  decide +kernel

end Results

end Runbook
