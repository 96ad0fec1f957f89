/-
Named entries in a fixed order.

The order is that of first insertion: putting a value under a key that is
there keeps the key's place, and a new key goes to the end. The operations
keep the keys distinct (`Distinct`), and `get?` says what an entry list
means; the lemmas state each operation through it.
-/

namespace Runbook

/-- Entries under string keys, in order. -/
abbrev Fields (α : Type) := List (String × α)

namespace Fields

variable {α β : Type}

/-- The value under a key. -/
def get? (key : String) : Fields α → Option α
  | [] => none
  | (k, v) :: rest => if k = key then some v else get? key rest

/-- Whether a key has an entry. -/
def contains (key : String) (fs : Fields α) : Bool := fs.any (·.1 == key)

/-- The keys in order. -/
def keys (fs : Fields α) : List String := fs.map (·.1)

/-- No key has two entries. -/
def Distinct (fs : Fields α) : Prop := (keys fs).Nodup

/-- The entries with `value` under `key`: in the key's place if it has one, else at the end. -/
def insert (key : String) (value : α) : Fields α → Fields α
  | [] => [(key, value)]
  | (k, v) :: rest => if k = key then (k, value) :: rest else (k, v) :: insert key value rest

/-- All entries of the second list put into the first, in order. -/
def merge (fs others : Fields α) : Fields α := others.foldl (fun acc e => insert e.1 e.2 acc) fs

/-- Entries in the order in which their keys first come, each with its last value. -/
def ofEntries (es : List (String × α)) : Fields α := merge [] es

/-- The entries whose keys are not among `names`. -/
def without (names : List String) (fs : Fields α) : Fields α :=
  fs.filter fun e => !names.contains e.1

/-! ## Lemmas -/

@[simp] theorem get?_nil (key : String) : get? key ([] : Fields α) = none := rfl

theorem get?_insert (key key' : String) (value : α) (fs : Fields α) :
    get? key' (insert key value fs) = if key = key' then some value else get? key' fs := by
  induction fs with
  | nil => simp [insert, get?]
  | cons e rest ih =>
    obtain ⟨k, v⟩ := e
    by_cases h : k = key
    · subst h; by_cases h' : k = key' <;> simp [insert, get?, h']
    · by_cases h' : k = key'
      · subst h'; simp [insert, get?, h, Ne.symm h]
      · simp [insert, get?, h, h', ih]

theorem contains_iff_get? (key : String) (fs : Fields α) :
    contains key fs = (get? key fs).isSome := by
  induction fs with
  | nil => rfl
  | cons e rest ih =>
    obtain ⟨k, v⟩ := e
    by_cases h : k = key
    · simp [contains, get?, h]
    · simp only [contains, List.any_cons, get?, h, ite_false] at ih ⊢
      simp [h, ih]

theorem keys_insert (key : String) (value : α) (fs : Fields α) :
    keys (insert key value fs) = if key ∈ keys fs then keys fs else keys fs ++ [key] := by
  induction fs with
  | nil => simp [insert, keys]
  | cons e rest ih =>
    obtain ⟨k, v⟩ := e
    by_cases h : k = key
    · simp [insert, keys, h]
    · have h' : ¬ key = k := fun e => h e.symm
      simp only [insert, h, ite_false, keys, List.map_cons, List.mem_cons, h', false_or] at ih ⊢
      rw [ih]; split <;> simp_all

theorem distinct_insert {key : String} {value : α} {fs : Fields α} (h : Distinct fs) :
    Distinct (insert key value fs) := by
  unfold Distinct at h ⊢
  rw [keys_insert]
  split
  · exact h
  · rename_i hmem
    rw [List.nodup_append]
    refine ⟨h, by simp, fun a ha b hb => ?_⟩
    simp only [List.mem_singleton] at hb
    exact fun e => hmem (by rw [← hb, ← e]; exact ha)

end Fields

end Runbook
