/-
Reading a record, member by member.

A record reads an object if every member takes what the object has under its name, in whatever
order the object lists its entries (`Yields.decode`). What a description reads is what its parts
read (`Yields.seq` and the lemmas beside it), so a proof that a record is read follows the
description; `Reads` says the same where it does not matter which record it is. Where the last
member alone refuses, its error is the outcome (`decode_of_last_refused`).
-/
import Runbook.Proofs.Fields
import Runbook.Decode

namespace Runbook

/-! ## Outcomes -/

theorem map_ok {ε α β : Type} {x : Except ε α} {f : α → β} {b : β} (h : x.map f = .ok b) :
    ∃ a, x = .ok a ∧ f a = b := by
  cases x with
  | error e => cases h
  | ok a => exact ⟨a, rfl, Except.ok.inj h⟩

theorem bind_ok {ε α β : Type} {x : Except ε α} {f : α → Except ε β} {b : β}
    (h : x >>= f = .ok b) : ∃ a, x = .ok a ∧ f a = .ok b := by
  cases x with
  | error e => cases h
  | ok a => exact ⟨a, rfl, h⟩

namespace Decode

open Fields (Distinct)

/-! ## Members -/

namespace Record

variable {α β : Type} {type name : String} {fs : Object} {v : Value} {m : Member}
  {members : List Member} {e : DecodeError}

/-- What an object has under the name of a member, nothing included, is fine with the member. -/
def Takes (m : Member) (fs : Object) : Prop :=
  match Fields.get? m.name fs with
  | some v => m.check v = .ok ()
  | none => m.required = false

/-- All members take what the object has, and this is the record made of it. -/
structure Yields (r : Record α) (fs : Object) (a : α) : Prop where
  members : ∀ m ∈ r.members, Takes m fs
  make : r.make (fun name => Fields.get? name fs) = .ok a

/-- All members take what the object has, and the record is made of it. -/
structure Reads (r : Record α) (fs : Object) : Prop where
  members : ∀ m ∈ r.members, Takes m fs
  make : ∃ a, r.make (fun name => Fields.get? name fs) = .ok a

theorem Yields.reads {r : Record α} {a : α} (h : r.Yields fs a) : r.Reads fs :=
  ⟨h.members, a, h.make⟩

theorem Reads.yields {r : Record α} (h : r.Reads fs) : ∃ a, r.Yields fs a :=
  h.make.imp fun _ hmake => ⟨h.members, hmake⟩

namespace Yields

variable {read : Value → Decoded α}

theorem pure (a : α) : Yields (Pure.pure a : Record α) fs a := ⟨nofun, rfl⟩

theorem seq {f : Record (α → β)} {r : Record α} {g : α → β} {a : α} (hf : f.Yields fs g)
    (hr : r.Yields fs a) : (f <*> r).Yields fs (g a) := by
  refine ⟨fun m hm => ?_, ?_⟩
  · rcases List.mem_append.mp hm with h | h
    · exact hf.members m h
    · exact hr.members m h
  · show (do
      let g ← f.make _
      let x ← r.make _
      .ok (g x)) = Except.ok (g a)
    rw [hf.make, hr.make]
    rfl

theorem map {r : Record α} {a : α} (g : α → β) (hr : r.Yields fs a) : (g <$> r).Yields fs (g a) :=
  (pure g).seq hr

theorem required {a : α} (hget : Fields.get? name fs = some v) (hread : read v = .ok a) :
    (Record.required name read).Yields fs a := by
  refine ⟨fun m hm => ?_, ?_⟩
  · obtain rfl := List.mem_singleton.mp hm
    simp only [Takes, hget, hread]
    rfl
  · simp only [Record.required, hget, hread]

theorem withDefault {a d : α} (hget : Fields.get? name fs = some v) (hread : read v = .ok a) :
    (Record.withDefault name read d).Yields fs a := by
  refine ⟨fun m hm => ?_, ?_⟩
  · obtain rfl := List.mem_singleton.mp hm
    simp only [Takes, hget, hread]
    rfl
  · simp only [Record.withDefault, hget, hread]

theorem missing {d : α} (hget : Fields.get? name fs = none) :
    (Record.withDefault name read d).Yields fs d := by
  refine ⟨fun m hm => ?_, ?_⟩
  · obtain rfl := List.mem_singleton.mp hm
    simp only [Takes, hget]
  · simp only [Record.withDefault, hget]

theorem optional {o : Option α} (hget : Fields.get? name fs = some v)
    (hread : nullable read v = .ok o) : (Record.optional name read).Yields fs o :=
  withDefault hget hread

end Yields

namespace Reads

variable {read : Value → Decoded α}

theorem seq {f : Record (α → β)} {r : Record α} (hf : f.Reads fs) (hr : r.Reads fs) :
    (f <*> r).Reads fs := by
  obtain ⟨g, hg⟩ := hf.yields
  obtain ⟨a, ha⟩ := hr.yields
  exact (hg.seq ha).reads

theorem map {r : Record α} (g : α → β) (hr : r.Reads fs) : (g <$> r).Reads fs := by
  obtain ⟨a, ha⟩ := hr.yields
  exact (ha.map g).reads

theorem required {a : α} (hget : Fields.get? name fs = some v) (hread : read v = .ok a) :
    (Record.required name read).Reads fs := (Yields.required hget hread).reads

theorem withDefault {d : α} (h : ∀ v, Fields.get? name fs = some v → ∃ a, read v = .ok a) :
    (Record.withDefault name read d).Reads fs := by
  cases hget : Fields.get? name fs with
  | none => exact (Yields.missing hget).reads
  | some v =>
    obtain ⟨a, ha⟩ := h v hget
    exact (Yields.withDefault hget ha).reads

theorem optional (h : ∀ v, Fields.get? name fs = some v → ∃ a, read v = .ok a) :
    (Record.optional name read).Reads fs := by
  refine withDefault fun v hget => ?_
  obtain ⟨a, ha⟩ := h v hget
  cases v with
  | null => exact ⟨none, rfl⟩
  | _ => exact ⟨some a, by simp only [nullable, ha]; rfl⟩

end Reads

/-! ## Objects -/

/-- Entries whose checks succeed, or fail in one way only, fail in that way or not at all. -/
theorem checkEntries_of_error (hfs : ∀ key v, (key, v) ∈ fs → ∀ m,
      members.find? (·.name == key) = some m → m.check v = .ok () ∨ m.check v = .error e)
    (hbad : ∃ key v m, (key, v) ∈ fs ∧ members.find? (·.name == key) = some m ∧
      m.check v = .error e) : checkEntries members fs = .error e := by
  induction fs with
  | nil =>
    obtain ⟨_, _, _, hmem, -⟩ := hbad
    cases hmem
  | cons entry rest ih =>
    obtain ⟨key, v⟩ := entry
    have hrest := fun key' v' hmem => hfs key' v' (List.mem_cons_of_mem _ hmem)
    obtain ⟨key', v', m', hmem, hfind, herror⟩ := hbad
    rcases List.mem_cons.mp hmem with heq | hmem
    · cases heq
      simp only [checkEntries, hfind, herror]
      rfl
    · have hlater := ih hrest ⟨key', v', m', hmem, hfind, herror⟩
      simp only [checkEntries]
      cases hhead : members.find? (·.name == key) with
      | none => exact hlater
      | some m =>
        rcases hfs key v (List.mem_cons_self ..) m hhead with hok | hfail
        · simp only [hok]
          exact hlater
        · simp only [hfail]
          rfl

theorem checkEntries_of_ok (hfs : ∀ key v, (key, v) ∈ fs → ∀ m,
    members.find? (·.name == key) = some m → m.check v = .ok ()) :
    checkEntries members fs = .ok () := by
  induction fs with
  | nil => rfl
  | cons entry rest ih =>
    obtain ⟨key, v⟩ := entry
    have hlater := ih fun key' v' hmem => hfs key' v' (List.mem_cons_of_mem _ hmem)
    simp only [checkEntries]
    cases hhead : members.find? (·.name == key) with
    | none => exact hlater
    | some m =>
      simp only [hfs key v (List.mem_cons_self ..) m hhead]
      exact hlater

/-- With distinct keys, the member an entry is checked by takes it. -/
theorem check_of_takes (hd : Distinct fs) (hmem : (name, v) ∈ fs)
    (hfind : members.find? (·.name == name) = some m) (h : Takes m fs) : m.check v = .ok () := by
  have hname : m.name = name := by simpa using List.find?_some hfind
  simpa only [Takes, hname, (Fields.get?_eq_some_iff hd).mpr hmem] using h

theorem Yields.decode {r : Record α} {a : α} (h : r.Yields fs a) (hd : Distinct fs)
    (type : String) : r.decode type (.obj fs) = .ok a := by
  have hentries : checkEntries r.members fs = .ok () :=
    checkEntries_of_ok fun _ _ hmem m hfind =>
      check_of_takes hd hmem hfind (h.members m (List.mem_of_find?_eq_some hfind))
  have hmissing : r.members.find? (fun m => m.required && !Fields.contains m.name fs) = none := by
    rw [List.find?_eq_none]
    intro m hm hlacks
    have htakes := h.members m hm
    simp only [Bool.and_eq_true, Bool.not_eq_true', Fields.contains_iff_get?,
      Option.isSome_eq_false_iff, Option.isNone_iff_eq_none] at hlacks
    simp only [Takes, hlacks.2, hlacks.1] at htakes
    cases htakes
  simp only [Record.decode, checkFields, hentries, hmissing, h.make]
  rfl

theorem Reads.decode {r : Record α} (h : r.Reads fs) (hd : Distinct fs) (type : String) :
    ∃ a, r.decode type (.obj fs) = .ok a :=
  h.yields.imp fun _ ha => ha.decode hd type

/-- What is read, from an object or from an array, is made of what the members find there. -/
theorem made_of_decode {r : Record α} {a : α} (h : r.decode type v = .ok a) :
    ∃ entry, r.make entry = .ok a := by
  cases v with
  | obj fs =>
    obtain ⟨-, -, hmake⟩ := bind_ok h
    exact ⟨_, hmake⟩
  | arr vs =>
    obtain ⟨-, -, hmake⟩ := bind_ok h
    exact ⟨_, hmake⟩
  | null | bool _ | num _ | str _ => cases h

/-- The last member alone refuses its entry. -/
theorem decode_of_last_refused {f : Record (α → β)} {r : Record α} (hd : Distinct fs)
    (hf : f.Reads fs) (hr : r.members = [m]) (hname : m.name ∉ f.members.map Member.name)
    (hget : Fields.get? m.name fs = some v) (herror : m.check v = .error e) (type : String) :
    (f <*> r).decode type (.obj fs) = .error e := by
  have hmembers : (f <*> r).members = f.members ++ [m] := congrArg (f.members ++ ·) hr
  have hfind : (f <*> r).members.find? (·.name == m.name) = some m := by
    have hnone : f.members.find? (·.name == m.name) = none :=
      List.find?_eq_none.mpr fun m' hm' heq =>
        hname (List.mem_map.mpr ⟨m', hm', by simpa using heq⟩)
    simp [hmembers, List.find?_append, hnone]
  have hentries : checkEntries (f <*> r).members fs = .error e := by
    refine checkEntries_of_error (fun key w hw m' hm' => ?_)
      ⟨m.name, v, m, Fields.mem_of_get? hget, hfind, herror⟩
    have hmem := List.mem_of_find?_eq_some hm'
    rw [hmembers] at hmem
    rcases List.mem_append.mp hmem with hmem | hmem
    · exact .inl (check_of_takes hd hw hm' (hf.members m' hmem))
    · obtain rfl := List.mem_singleton.mp hmem
      obtain rfl : m'.name = key := by simpa using List.find?_some hm'
      obtain rfl : v = w := Option.some.inj (hget.symm.trans ((Fields.get?_eq_some_iff hd).mpr hw))
      exact .inr herror
  simp only [Record.decode, checkFields, hentries]
  rfl

end Record

end Decode

end Runbook
