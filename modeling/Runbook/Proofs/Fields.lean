/-
Entry lists by what is found in them.

With distinct keys the order of the entries is all that the lookups leave
open: two lists in which every key finds the same are reorderings of each
other (`Reordered.of_get?`), and the operations keep reorderings apart from
nothing else.
-/
import Mathlib.Data.List.Induction
import Runbook.Fields

namespace Runbook.Fields

variable {α : Type} {key : String} {v : α} {fs gs es : Fields α}

instance (fs : Fields α) : Decidable (Distinct fs) := inferInstanceAs (Decidable (keys fs).Nodup)

theorem distinct_nil : Distinct ([] : Fields α) := List.nodup_nil

theorem get?_eq_none_iff : get? key fs = none ↔ key ∉ keys fs := by
  induction fs with
  | nil => simp [keys]
  | cons e rest ih =>
    obtain ⟨k, w⟩ := e
    by_cases h : k = key
    · simp [get?, keys, h]
    · have h' : ¬ key = k := fun e => h e.symm
      simp only [keys] at ih
      simp [get?, keys, h, h', ih]

theorem mem_of_get? (h : get? key fs = some v) : (key, v) ∈ fs := by
  induction fs with
  | nil => simp at h
  | cons e rest ih =>
    obtain ⟨k, w⟩ := e
    by_cases hk : k = key
    · simp only [get?, hk, if_true, Option.some.injEq] at h
      simp [hk, h]
    · simp only [get?, hk, if_false] at h
      exact List.mem_cons_of_mem _ (ih h)

theorem mem_keys_of_get? (h : get? key fs = some v) : key ∈ keys fs :=
  List.mem_map_of_mem (mem_of_get? h)

theorem contains_iff_mem_keys : contains key fs = true ↔ key ∈ keys fs := by
  rw [contains_iff_get?, Option.isSome_iff_ne_none, ne_eq, get?_eq_none_iff, not_not]

theorem get?_eq_some_iff (hd : Distinct fs) : get? key fs = some v ↔ (key, v) ∈ fs := by
  refine ⟨mem_of_get?, fun h => ?_⟩
  induction fs with
  | nil => simp at h
  | cons e rest ih =>
    obtain ⟨k, w⟩ := e
    simp only [Distinct, keys, List.map_cons, List.nodup_cons] at hd
    rcases List.mem_cons.mp h with heq | hmem
    · cases heq
      simp [get?]
    · have hk : ¬ k = key := fun e => hd.1 (e ▸ List.mem_map_of_mem hmem)
      simp only [get?, hk, if_false]
      exact ih hd.2 hmem

theorem Distinct.nodup (h : Distinct fs) : fs.Nodup :=
  List.Pairwise.of_map (fun e : String × α => e.1) (fun _ _ hne heq => hne (heq ▸ rfl)) h

/-- Distinct keys in the same order, and the same under each: the same list. -/
theorem Distinct.ext (h : Distinct fs) (hkeys : keys fs = keys gs)
    (hget : ∀ key, get? key fs = get? key gs) : fs = gs := by
  induction fs generalizing gs with
  | nil =>
    cases gs with
    | nil => rfl
    | cons e' rest' => simp [keys] at hkeys
  | cons e rest ih =>
    cases gs with
    | nil => simp [keys] at hkeys
    | cons e' rest' =>
      obtain ⟨k, v⟩ := e
      obtain ⟨k', v'⟩ := e'
      simp only [keys, List.map_cons, List.cons.injEq] at hkeys
      obtain ⟨rfl, hrest⟩ := hkeys
      simp only [Distinct, keys, List.map_cons, List.nodup_cons] at h
      have hv : v = v' := by simpa [get?] using hget k
      have htail : rest = rest' := ih h.2 hrest fun key => by
        by_cases hk : k = key
        · subst hk
          rw [get?_eq_none_iff.mpr h.1, get?_eq_none_iff.mpr fun hmem => h.1 (hrest ▸ hmem)]
        · simpa [get?, hk] using hget key
      rw [hv, htail]

theorem get?_append (fs gs : Fields α) : get? key (fs ++ gs) = (get? key fs).or (get? key gs) := by
  induction fs with
  | nil => rfl
  | cons e rest ih =>
    obtain ⟨k, w⟩ := e
    by_cases hk : k = key
    · simp [get?, hk]
    · simpa [get?, hk] using ih

/-! ## Leaving entries out -/

theorem get?_without (names : List String) (fs : Fields α) :
    get? key (without names fs) = if key ∈ names then none else get? key fs := by
  induction fs with
  | nil => simp [without]
  | cons e rest ih =>
    obtain ⟨k, w⟩ := e
    simp only [without, List.contains_eq_mem, List.filter_cons] at ih ⊢
    by_cases hk : k = key
    · subst hk
      by_cases hmem : k ∈ names <;> simp [hmem, get?, ih]
    · by_cases hmem : k ∈ names <;> simp [hmem, get?, hk, ih]

theorem without_cons_of_mem {names : List String} (h : key ∈ names) (v : α) (fs : Fields α) :
    without names ((key, v) :: fs) = without names fs := by
  simp [without, h]

/-- What is left has what it had, so where the same is left the same is found. -/
theorem get?_of_without {names : List String} {fs gs : Fields α}
    (h : without names fs = without names gs) : ∀ key ∉ names, get? key fs = get? key gs := by
  intro key hkey
  have hsame := congrArg (get? key) h
  rwa [get?_without, get?_without, if_neg hkey, if_neg hkey] at hsame

theorem distinct_without (names : List String) (h : Distinct fs) : Distinct (without names fs) :=
  List.Pairwise.sublist (List.filter_sublist.map _) h

theorem get?_without_ne {key' : String} (h : key' ≠ key) (fs : Fields α) :
    get? key' (without [key] fs) = get? key' fs := by
  rw [get?_without, if_neg (by simpa using h)]

theorem without_of_not_mem {names : List String} (h : ∀ key ∈ keys fs, key ∉ names) :
    without names fs = fs :=
  List.filter_eq_self.mpr fun e he => by simpa using h e.1 (List.mem_map_of_mem he)

theorem without_of_get?_none (h : get? key fs = none) : without [key] fs = fs :=
  without_of_not_mem fun k hk => by
    rintro (_ | ⟨_, ⟨⟩⟩)
    exact get?_eq_none_iff.mp h hk

theorem without_append (names names' : List String) (fs : Fields α) :
    without (names ++ names') fs = without names' (without names fs) := by
  simp only [without, List.filter_filter, List.contains_eq_mem, List.mem_append, Bool.decide_or,
    Bool.not_or, Bool.and_comm]

theorem without_comm (names names' : List String) (fs : Fields α) :
    without names (without names' fs) = without names' (without names fs) := by
  simp only [without, List.filter_filter, Bool.and_comm]

/-! ## Putting entries in -/

theorem distinct_merge (h : Distinct fs) : Distinct (merge fs es) := by
  induction es generalizing fs with
  | nil => exact h
  | cons e es ih => exact ih (distinct_insert h)

theorem insert_of_not_mem (h : key ∉ keys fs) (v : α) : insert key v fs = fs ++ [(key, v)] := by
  induction fs with
  | nil => rfl
  | cons e rest ih =>
    obtain ⟨k, w⟩ := e
    simp only [keys, List.map_cons, List.mem_cons, not_or] at h
    simp only [insert, if_neg fun heq => h.1 (Eq.symm heq), ih h.2, List.cons_append]

theorem ofEntries_concat (es : List (String × α)) (e : String × α) :
    ofEntries (es ++ [e]) = insert e.1 e.2 (ofEntries es) := by
  simp only [ofEntries, merge, List.foldl_append, List.foldl_cons, List.foldl_nil]

/-- Distinct keys stay in the order in which they are put in. -/
theorem merge_nil (h : Distinct es) : merge [] es = es := by
  induction es using List.reverseRecOn with
  | nil => rfl
  | append_singleton es e ih =>
    rw [Distinct, keys, List.map_append, List.nodup_append] at h
    obtain ⟨hd, -, hnew⟩ := h
    have hnot : e.1 ∉ keys es := fun hmem => hnew _ hmem _ (List.mem_singleton_self _) rfl
    rw [← ofEntries, ofEntries_concat, ofEntries, ih hd, insert_of_not_mem hnot]

/-- Of several entries with a key the last one counts. -/
theorem get?_ofEntries (es : List (String × α)) (key : String) :
    get? key (ofEntries es) = get? key es.reverse := by
  induction es using List.reverseRecOn with
  | nil => rfl
  | append_singleton es e ih =>
    rw [ofEntries_concat, get?_insert, ih, List.reverse_append, List.reverse_singleton,
      List.singleton_append]
    rfl

/-- The first entry with a key counts if there is no other. -/
theorem get?_ofEntries_cons (h : key ∉ keys es) (v : α) :
    get? key (ofEntries ((key, v) :: es)) = some v := by
  have hnone : get? key es.reverse = none := by
    rw [get?_eq_none_iff, keys, List.map_reverse, List.mem_reverse]
    exact h
  rw [get?_ofEntries, List.reverse_cons, get?_append, hnone, Option.none_or]
  exact if_pos rfl

/-- The place of a key is that of its first entry. -/
theorem keys_ofEntries (es : List (String × α)) : keys (ofEntries es) = (keys es).eraseDups := by
  induction es using List.reverseRecOn with
  | nil => rfl
  | append_singleton es e ih =>
    rw [ofEntries_concat, keys_insert, ih, keys, keys, List.map_append, List.eraseDups_append]
    by_cases hmem : e.1 ∈ es.map (·.1)
    · simp [List.removeAll, hmem]
    · simp [List.removeAll, hmem, List.eraseDups_cons]

theorem get?_merge_of_not_mem (h : key ∉ keys es) : get? key (merge fs es) = get? key fs := by
  induction es generalizing fs with
  | nil => rfl
  | cons e es ih =>
    simp only [keys, List.map_cons, List.mem_cons, not_or] at h
    refine (ih h.2).trans ?_
    rw [get?_insert, if_neg (fun he => h.1 he.symm)]

/-- Entries put in more than once do no harm if they are the same each time. -/
theorem get?_merge_of_mem (h : key ∈ keys es) (hv : ∀ w, (key, w) ∈ es → w = v) :
    get? key (merge fs es) = some v := by
  induction es generalizing fs with
  | nil => simp [keys] at h
  | cons e es ih =>
    obtain ⟨k, w⟩ := e
    by_cases hmem : key ∈ keys es
    · exact ih hmem fun w' hw' => hv w' (List.mem_cons_of_mem _ hw')
    · obtain rfl : key = k := by
        simpa [keys, show key ∉ List.map (·.1) es from hmem] using h
      obtain rfl : w = v := hv w (List.mem_cons_self ..)
      refine (get?_merge_of_not_mem hmem).trans ?_
      rw [get?_insert, if_pos rfl]

theorem get?_merge (h : Distinct es) :
    get? key (merge fs es) = (get? key es).or (get? key fs) := by
  induction es generalizing fs with
  | nil => simp [merge]
  | cons e es ih =>
    obtain ⟨k, w⟩ := e
    simp only [Distinct, keys, List.map_cons, List.nodup_cons] at h
    by_cases hk : k = key
    · subst hk
      have : get? k (merge (insert k w fs) es) = get? k (insert k w fs) := get?_merge_of_not_mem h.1
      simpa [merge, get?, get?_insert] using this
    · have : get? key (merge (insert k w fs) es) = (get? key es).or (get? key (insert k w fs)) :=
        ih h.2
      simpa [merge, get?, get?_insert, hk] using this

/-- Which keys come out depends on the keys alone. -/
theorem keys_merge_congr {fs' es' : Fields α} (hf : keys fs = keys fs') (he : keys es = keys es') :
    keys (merge fs es) = keys (merge fs' es') := by
  induction es generalizing fs fs' es' with
  | nil =>
    cases es' with
    | nil => exact hf
    | cons e es' => simp [keys] at he
  | cons e es ih =>
    cases es' with
    | nil => simp [keys] at he
    | cons e' es' =>
      simp only [keys, List.map_cons, List.cons.injEq] at he
      have hinsert : keys (insert e.1 e.2 fs) = keys (insert e'.1 e'.2 fs') := by
        rw [keys_insert, keys_insert, hf, he.1]
      show keys (merge (insert e.1 e.2 fs) es) = keys (merge (insert e'.1 e'.2 fs') es')
      exact ih hinsert he.2

theorem insert_self (h : get? key fs = some v) : insert key v fs = fs := by
  induction fs with
  | nil => cases h
  | cons e rest ih =>
    obtain ⟨k, w⟩ := e
    by_cases hk : k = key
    · simp only [get?, hk, if_true, Option.some.injEq] at h
      simp only [insert, hk, if_true, h]
    · simp only [get?, hk, if_false] at h
      simp only [insert, hk, if_false, ih h]

/-- Keys that are there keep their places. -/
theorem keys_merge_of_mem (h : ∀ key ∈ keys es, key ∈ keys fs) :
    keys (merge fs es) = keys fs := by
  induction es generalizing fs with
  | nil => rfl
  | cons e es ih =>
    have hinsert : keys (insert e.1 e.2 fs) = keys fs := by
      rw [keys_insert, if_pos (h e.1 (List.mem_cons_self ..))]
    exact (ih fun key hkey => hinsert ▸ h key (List.mem_cons_of_mem _ hkey)).trans hinsert

/-! ## Entries that are left out again -/

theorem without_insert {names : List String} (h : key ∈ names) (v : α) (fs : Fields α) :
    without names (insert key v fs) = without names fs := by
  induction fs with
  | nil => simp [insert, without, h]
  | cons e rest ih =>
    obtain ⟨k, w⟩ := e
    simp only [without, List.contains_eq_mem] at ih ⊢
    by_cases hk : k = key
    · simp [insert, hk, h]
    · simp [insert, hk, List.filter_cons, ih]

/-- Leaving out and putting in do not interfere under different keys. -/
theorem without_insert_comm {names : List String} (h : key ∉ names) (v : α) (fs : Fields α) :
    without names (insert key v fs) = insert key v (without names fs) := by
  induction fs with
  | nil => simp [insert, without, h]
  | cons e rest ih =>
    obtain ⟨k, w⟩ := e
    simp only [without, List.contains_eq_mem] at ih ⊢
    by_cases hk : k = key
    · simp [insert, hk, h]
    · by_cases hmem : k ∈ names <;> simp [insert, hk, hmem, ih]

theorem without_merge {names : List String} (h : ∀ key ∈ keys es, key ∈ names) :
    without names (merge fs es) = without names fs := by
  induction es generalizing fs with
  | nil => rfl
  | cons e es ih =>
    simp only [keys, List.map_cons, List.mem_cons, forall_eq_or_imp] at h
    exact (ih h.2).trans (without_insert h.1 e.2 fs)

theorem without_merge_comm {names : List String} (h : ∀ key ∈ keys es, key ∉ names) :
    without names (merge fs es) = merge (without names fs) es := by
  induction es generalizing fs with
  | nil => rfl
  | cons e es ih =>
    simp only [keys, List.map_cons, List.mem_cons, forall_eq_or_imp] at h
    show without names (merge (insert e.1 e.2 fs) es) = merge (insert e.1 e.2 (without names fs)) es
    rw [ih h.2, without_insert_comm h.1]

/-- What is left of two lists once some entries are out is the same after the same insertion. -/
theorem without_insert_congr {names : List String} {fs gs : Fields α}
    (h : without names fs = without names gs) (key : String) (v : α) :
    without names (insert key v fs) = without names (insert key v gs) := by
  by_cases hkey : key ∈ names
  · rw [without_insert hkey, without_insert hkey, h]
  · rw [without_insert_comm hkey, without_insert_comm hkey, h]

theorem without_merge_congr {names : List String} {fs gs : Fields α}
    (h : without names fs = without names gs) (es : Fields α) :
    without names (merge fs es) = without names (merge gs es) := by
  induction es generalizing fs gs with
  | nil => exact h
  | cons e es ih => exact ih (without_insert_congr h e.1 e.2)

theorem without_without {names names' : List String} (h : ∀ key ∈ names', key ∈ names)
    (fs : Fields α) : without names (without names' fs) = without names fs := by
  simp only [without, List.filter_filter, List.contains_eq_mem]
  refine List.filter_congr fun e _ => ?_
  have hsub := h e.1
  by_cases hmem : e.1 ∈ names'
  · simp [hmem, hsub hmem]
  · simp [hmem]

/-- It does not matter that an entry is left out which is put in again. -/
theorem get?_insert_without (key : String) (v : α) (fs : Fields α) (key' : String) :
    get? key' (insert key v (without [key] fs)) = get? key' (insert key v fs) := by
  rw [get?_insert, get?_insert]
  split
  · rfl
  · next hne => exact get?_without_ne (Ne.symm hne) fs

/-! ## Reorderings -/

/-- The same entries under distinct keys, in another order. -/
structure Reordered (fs gs : Fields α) : Prop where
  distinct : Distinct fs
  perm : fs.Perm gs

namespace Reordered

theorem refl (h : Distinct fs) : Reordered fs fs := ⟨h, .refl fs⟩

theorem distinct_right (h : Reordered fs gs) : Distinct gs :=
  (h.perm.map fun e : String × α => e.1).nodup_iff.mp h.distinct

theorem get?_eq (h : Reordered fs gs) (key : String) : get? key fs = get? key gs := by
  apply Option.ext
  intro v
  rw [get?_eq_some_iff h.distinct, get?_eq_some_iff h.distinct_right, h.perm.mem_iff]

theorem of_get? (hf : Distinct fs) (hg : Distinct gs) (h : ∀ key, get? key fs = get? key gs) :
    Reordered fs gs := by
  refine ⟨hf, (List.perm_ext_iff_of_nodup hf.nodup hg.nodup).mpr fun ⟨key, v⟩ => ?_⟩
  rw [← get?_eq_some_iff hf, ← get?_eq_some_iff hg, h]

theorem contains_eq (h : Reordered fs gs) (key : String) : contains key fs = contains key gs := by
  rw [contains_iff_get?, contains_iff_get?, h.get?_eq]

theorem without (h : Reordered fs gs) (names : List String) :
    Reordered (without names fs) (Fields.without names gs) :=
  ⟨distinct_without names h.distinct, h.perm.filter _⟩

theorem insert (h : Reordered fs gs) (key : String) (v : α) :
    Reordered (insert key v fs) (Fields.insert key v gs) :=
  of_get? (distinct_insert h.distinct) (distinct_insert h.distinct_right) fun key' => by
    rw [get?_insert, get?_insert, h.get?_eq]

theorem merge (h : Reordered fs gs) (es : Fields α) :
    Reordered (merge fs es) (Fields.merge gs es) := by
  induction es generalizing fs gs with
  | nil => exact h
  | cons e es ih => exact ih (h.insert e.1 e.2)

end Reordered

end Runbook.Fields
