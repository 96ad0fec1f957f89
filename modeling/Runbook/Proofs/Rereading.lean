/-
Typed data, written and read again.

Data comes in several spellings: records as objects or as arrays, names as texts or as objects with
one key, numbers of any kind where a real one is wanted, `null` for what is absent. It is written in
one of them, and reading that gives the same data (`reread`).

Most types read back whatever is written of them (`ReadsBack`). The exception is an optional member
of any kind of value: a `null` that is there is written like one that is not. Reading never makes
one that is there, so for the types with such a member it matters that the data was read
(`Rereads`).
-/
import Runbook.Agent
import Runbook.Locator
import Runbook.Proofs.Decode

namespace Runbook

namespace Decode

variable {α β : Type}

/-- What is written of any data reads as that data. -/
def ReadsBack (read : Value → Decoded α) (write : α → Value) : Prop := ∀ a, read (write a) = .ok a

/-- What is written of data that was read reads as that data. -/
def Rereads (read : Value → Decoded α) (write : α → Value) : Prop :=
  ∀ v a, read v = .ok a → read (write a) = .ok a

theorem ReadsBack.rereads {read : Value → Decoded α} {write : α → Value}
    (h : ReadsBack read write) : Rereads read write := fun _ a _ => h a

/-! ## Plain types -/

theorem any_readsBack : ReadsBack any id := fun _ => rfl

theorem text_readsBack : ReadsBack text .str := fun _ => rfl

theorem flag_readsBack : ReadsBack flag .bool := fun _ => rfl

theorem real_readsBack : ReadsBack real .ofReal := fun _ => rfl

theorem natural64_readsBack : ReadsBack natural64 fun n => .num (.nat n) := fun _ => rfl

theorem natural32_readsBack : ReadsBack natural32 fun n => .ofNat n.toNat := by
  intro n
  have hsmall : n.toNat < 0x100000000 := n.toNat_lt
  have hsize : (UInt64.ofNat n.toNat).toNat = n.toNat :=
    UInt64.toNat_ofNat_of_lt' (Nat.lt_trans hsmall (by decide))
  simp only [Value.ofNat, natural32, hsize, if_pos hsmall, UInt32.ofNat_toNat]

theorem object_readsBack : ReadsBack object .obj := fun _ => rfl

theorem list_readsBack {item : Value → Decoded α} {write : α → Value} (h : ReadsBack item write) :
    ReadsBack (list item) fun as => .arr (as.map write) := by
  intro as
  show (as.map write).mapM item = .ok as
  induction as with
  | nil => rfl
  | cons a rest ih =>
    rw [List.map_cons, List.mapM_cons, h a, ih]
    rfl

theorem choice_readsBack {names : List (String × α)} {name : α → String}
    (h : ∀ a, Fields.get? (name a) names = some a) :
    ReadsBack (choice names) fun a => .str (name a) := by
  intro a
  simp only [choice, h]

theorem nullable_readsBack {read : Value → Decoded α} {write : α → Value} (h : ReadsBack read write)
    (hnull : ∀ a, write a ≠ .null) :
    ReadsBack (nullable read) fun o => .ofOption (o.map write) := by
  rintro (_ | a)
  · rfl
  · show nullable read (write a) = .ok (some a)
    unfold nullable
    split
    · next hwritten => exact absurd hwritten (hnull a)
    · rw [h a]
      rfl

/-- A `null` is not read as a value that is there. -/
theorem nullable_any_rereads : Rereads (nullable any) Value.ofOption := by
  intro v o h
  unfold nullable at h
  split at h
  · cases h
    rfl
  · next hnull =>
    cases h
    show nullable any v = .ok (some v)
    unfold nullable
    split
    · exact absurd rfl hnull
    · rfl

/-! ## Members of records -/

namespace Record

variable {entry : String → Option Value} {name : String}

theorem make_seq_ok {f : Record (α → β)} {r : Record α} {b : β} :
    (f <*> r).make entry = .ok b ↔
      ∃ g, f.make entry = .ok g ∧ ∃ a, r.make entry = .ok a ∧ g a = b := by
  constructor
  · intro h
    obtain ⟨g, hg, h⟩ := bind_ok h
    obtain ⟨a, ha, h⟩ := bind_ok h
    exact ⟨g, hg, a, ha, Except.ok.inj h⟩
  · rintro ⟨g, hg, a, ha, rfl⟩
    show (do
      let g ← f.make entry
      let x ← r.make entry
      .ok (g x)) = Except.ok (g a)
    rw [hg, ha]
    rfl

theorem make_map_ok {g : α → β} {r : Record α} {b : β} :
    (g <$> r).make entry = .ok b ↔ ∃ a, r.make entry = .ok a ∧ g a = b := by
  rw [show g <$> r = (Pure.pure g : Record (α → β)) <*> r from rfl, make_seq_ok]
  constructor
  · rintro ⟨g', hg', a, ha, rfl⟩
    cases hg'
    exact ⟨a, ha, rfl⟩
  · rintro ⟨a, ha, rfl⟩
    exact ⟨g, rfl, a, ha, rfl⟩

/-- What an optional member of any kind has read reads back. -/
theorem optional_any_rereads {o : Option Value} (h : (optional name any).make entry = .ok o) :
    nullable any (.ofOption o) = .ok o := by
  simp only [optional, withDefault] at h
  split at h
  · exact nullable_any_rereads _ _ h
  · cases h
    rfl

end Record

end Decode

open Decode
open Decode.Record (Yields made_of_decode make_seq_ok make_map_ok optional_any_rereads)
open Fields (Distinct keys)

/-! ## Names -/

theorem Direction.readsBack : ReadsBack Direction.decode fun d => .str d.name :=
  choice_readsBack fun d => by cases d <;> rfl

theorem InputMode.readsBack : ReadsBack (choice InputMode.named) fun m => .str m.name :=
  choice_readsBack fun m => by cases m <;> rfl

theorem ScrollType.readsBack : ReadsBack (choice ScrollType.named) fun t => .str t.name :=
  choice_readsBack fun t => by cases t <;> rfl

theorem CursorDirection.readsBack : ReadsBack (choice CursorDirection.named) fun d => .str d.name :=
  choice_readsBack fun d => by cases d <;> rfl

theorem TargetKind.readsBack : ReadsBack TargetKind.decode TargetKind.toValue :=
  choice_readsBack fun k => by cases k <;> rfl

/-! ## Scripts and answers -/

theorem Task.readsBack : ReadsBack Task.decode Task.toValue := fun t =>
  Yields.decode (.seq (.seq (.map _ (.required rfl (text_readsBack t.name)))
      (.required rfl (list_readsBack object_readsBack t.flow)))
    (.withDefault rfl (flag_readsBack t.continueOnError)))
    (by simp [Distinct, keys]) _

theorem Verdict.readsBack : ReadsBack Verdict.decode Verdict.toValue := fun v =>
  have htext := nullable_readsBack text_readsBack nofun
  Yields.decode (.seq (.seq (.map _ (.required rfl (flag_readsBack v.pass)))
      (.optional rfl (htext v.thought))) (.optional rfl (htext v.message)))
    (by simp [Distinct, keys]) _

theorem Point.readsBack : ReadsBack Point.decode Point.toValue := fun p =>
  Yields.decode (.seq (.map _ (.required rfl (real_readsBack p.x)))
    (.required rfl (real_readsBack p.y))) (by simp [Distinct, keys]) _

/-! ## Locators -/

theorem Prompt.readsBack : ReadsBack Prompt.decode Prompt.toValue := fun p => by cases p <;> rfl

theorem PathHint.readsBack : ReadsBack PathHint.decode PathHint.toValue := fun h => by
  cases h <;> rfl

/-- A hint that is not there is not written either. -/
theorem Locator.readsBack : ReadsBack Locator.decode Locator.toValue := by
  rintro ⟨prompt, deepThink, cacheable, xpath⟩
  have hpath := nullable_readsBack PathHint.readsBack fun h => by cases h <;> nofun
  have hothers (rest : Object) : Yields (Locator.mk <$> .required "prompt" Prompt.decode
      <*> .withDefault "deepThink" flag false <*> .withDefault "cacheable" flag true)
      ([("prompt", prompt.toValue), ("deepThink", .bool deepThink),
        ("cacheable", .bool cacheable)] ++ rest) (Locator.mk prompt deepThink cacheable) :=
    .seq (.seq (.map _ (.required rfl (Prompt.readsBack prompt)))
      (.withDefault rfl (flag_readsBack deepThink))) (.withDefault rfl (flag_readsBack cacheable))
  cases xpath with
  | none => exact ((hothers []).seq (.missing rfl)).decode (by simp [Distinct, Fields.keys]) _
  | some hint =>
    exact ((hothers [("xpath", hint.toValue)]).seq (.optional rfl (hpath (some hint)))).decode
      (by simp [Distinct, Fields.keys]) _

/-! ## Parameters -/

theorem TargetParams.readsBack : ReadsBack TargetParams.decode TargetParams.toValue := fun p =>
  Yields.decode (.map _ (.required rfl (any_readsBack p.locate)))
    (by simp [Distinct, keys]) _

theorem DragParams.readsBack : ReadsBack DragParams.decode DragParams.toValue := fun p =>
  Yields.decode (.seq (.map _ (.required rfl (any_readsBack p.source)))
    (.required rfl (any_readsBack p.destination))) (by simp [Distinct, keys]) _

theorem LongPressParams.readsBack : ReadsBack LongPressParams.decode LongPressParams.toValue :=
  fun p => Yields.decode (.seq (.map _ (.required rfl (any_readsBack p.locate)))
    (.withDefault rfl (natural64_readsBack p.duration)))
    (by simp [Distinct, keys]) _

theorem CursorParams.readsBack : ReadsBack CursorParams.decode CursorParams.toValue := fun p =>
  Yields.decode (.seq (.map _ (.required rfl (CursorDirection.readsBack p.direction)))
    (.required rfl (natural32_readsBack p.times)))
    (by simp [Distinct, keys]) _

theorem SleepParams.readsBack : ReadsBack SleepParams.decode SleepParams.toValue := fun p =>
  Yields.decode (.map _ (.required rfl (natural64_readsBack p.time)))
    (by simp [Distinct, keys]) _

theorem InputParams.rereads : Rereads InputParams.decode InputParams.toValue := by
  intro v p h
  obtain ⟨entry, hmade⟩ := made_of_decode h
  simp only [record, make_seq_ok, make_map_ok] at hmade
  obtain ⟨_, ⟨_, ⟨value, -, rfl⟩, locate, hlocate, rfl⟩, mode, -, rfl⟩ := hmade
  exact Yields.decode (.seq (.seq (.map _ (.required rfl (text_readsBack value)))
      (.optional rfl (optional_any_rereads hlocate))) (.required rfl (InputMode.readsBack mode)))
    (by simp [Distinct, keys]) _

theorem KeyPressParams.rereads : Rereads KeyPressParams.decode KeyPressParams.toValue := by
  intro v p h
  obtain ⟨entry, hmade⟩ := made_of_decode h
  simp only [record, make_seq_ok, make_map_ok] at hmade
  obtain ⟨_, ⟨locate, hlocate, rfl⟩, keyName, -, rfl⟩ := hmade
  exact Yields.decode (.seq (.map _ (.optional rfl (optional_any_rereads hlocate)))
    (.required rfl (text_readsBack keyName))) (by simp [Distinct, keys]) _

theorem Value.ofReal?_eq (o : Option Binary64) : Value.ofReal? o = .ofOption (o.map .ofReal) := by
  cases o <;> rfl

/-- An optional real number reads back: it is not written as `null`. -/
theorem Value.ofReal?_readsBack : ReadsBack (nullable real) Value.ofReal? := fun o =>
  Value.ofReal?_eq o ▸ nullable_readsBack real_readsBack nofun o

theorem ScrollParams.rereads : Rereads ScrollParams.decode ScrollParams.toValue := by
  intro v p h
  obtain ⟨entry, hmade⟩ := made_of_decode h
  simp only [record, make_seq_ok, make_map_ok] at hmade
  obtain ⟨_, ⟨_, ⟨_, ⟨direction, -, rfl⟩, type, -, rfl⟩, distance, -, rfl⟩, locate, hlocate,
    rfl⟩ := hmade
  exact Yields.decode (.seq (.seq (.seq
      (.map _ (.required rfl (Direction.readsBack direction)))
      (.required rfl (ScrollType.readsBack type)))
      (.optional rfl (Value.ofReal?_readsBack distance)))
      (.optional rfl (optional_any_rereads hlocate)))
    (by simp [Distinct, keys]) _

theorem SwipeParams.rereads : Rereads SwipeParams.decode SwipeParams.toValue := by
  intro v p h
  obtain ⟨entry, hmade⟩ := made_of_decode h
  simp only [record, make_seq_ok, make_map_ok] at hmade
  obtain ⟨_, ⟨_, ⟨_, ⟨_, ⟨_, ⟨start, hstart, rfl⟩, finish, hfinish, rfl⟩, direction, -, rfl⟩,
    distance, -, rfl⟩, duration, -, rfl⟩, count, -, rfl⟩ := hmade
  exact Yields.decode (.seq (.seq (.seq (.seq (.seq
      (.map _ (.optional rfl (optional_any_rereads hstart)))
      (.optional rfl (optional_any_rereads hfinish)))
      (.optional rfl (nullable_readsBack Direction.readsBack nofun direction)))
      (.optional rfl (Value.ofReal?_readsBack distance)))
      (.optional rfl (nullable_readsBack natural64_readsBack nofun duration)))
      (.optional rfl (nullable_readsBack natural32_readsBack nofun count)))
    (by simp [Distinct, keys]) _

/-! ## All of them -/

/-- The types of data that are read and written. -/
inductive DataType where
  | task
  | targetKind
  | prompt
  | locator
  | verdict
  | point
  | target
  | input
  | keyPress
  | scroll
  | drag
  | longPress
  | swipe
  | cursor
  | sleep

namespace DataType

/-- The data of a type. -/
abbrev Data : DataType → Type
  | .task => Task
  | .targetKind => TargetKind
  | .prompt => Prompt
  | .locator => Locator
  | .verdict => Verdict
  | .point => Point
  | .target => TargetParams
  | .input => InputParams
  | .keyPress => KeyPressParams
  | .scroll => ScrollParams
  | .drag => DragParams
  | .longPress => LongPressParams
  | .swipe => SwipeParams
  | .cursor => CursorParams
  | .sleep => SleepParams

def read : (d : DataType) → Value → Decoded d.Data
  | .task => Task.decode
  | .targetKind => TargetKind.decode
  | .prompt => Prompt.decode
  | .locator => Locator.decode
  | .verdict => Verdict.decode
  | .point => Point.decode
  | .target => TargetParams.decode
  | .input => InputParams.decode
  | .keyPress => KeyPressParams.decode
  | .scroll => ScrollParams.decode
  | .drag => DragParams.decode
  | .longPress => LongPressParams.decode
  | .swipe => SwipeParams.decode
  | .cursor => CursorParams.decode
  | .sleep => SleepParams.decode

def write : (d : DataType) → d.Data → Value
  | .task => Task.toValue
  | .targetKind => TargetKind.toValue
  | .prompt => Prompt.toValue
  | .locator => Locator.toValue
  | .verdict => Verdict.toValue
  | .point => Point.toValue
  | .target => TargetParams.toValue
  | .input => InputParams.toValue
  | .keyPress => KeyPressParams.toValue
  | .scroll => ScrollParams.toValue
  | .drag => DragParams.toValue
  | .longPress => LongPressParams.toValue
  | .swipe => SwipeParams.toValue
  | .cursor => CursorParams.toValue
  | .sleep => SleepParams.toValue

theorem rereads (d : DataType) : Rereads d.read d.write := by
  cases d with
  | task => exact Task.readsBack.rereads
  | targetKind => exact TargetKind.readsBack.rereads
  | prompt => exact Prompt.readsBack.rereads
  | locator => exact Locator.readsBack.rereads
  | verdict => exact Verdict.readsBack.rereads
  | point => exact Point.readsBack.rereads
  | target => exact TargetParams.readsBack.rereads
  | input => exact InputParams.rereads
  | keyPress => exact KeyPressParams.rereads
  | scroll => exact ScrollParams.rereads
  | drag => exact DragParams.readsBack.rereads
  | longPress => exact LongPressParams.readsBack.rereads
  | swipe => exact SwipeParams.rereads
  | cursor => exact CursorParams.readsBack.rereads
  | sleep => exact SleepParams.readsBack.rereads

/-- How data that reads is written. -/
def rewrite (d : DataType) (v : Value) : Decoded Value := (d.read v).map d.write

/-- **Data is read again as it was written.** Whatever spelling it was read from, what is written of
it reads as the same data, so writing it anew changes nothing. -/
theorem reread (d : DataType) {v : Value} {a : d.Data} (h : d.read v = .ok a) :
    d.read (d.write a) = .ok a ∧ d.rewrite v = .ok (d.write a) ∧
      d.rewrite (d.write a) = .ok (d.write a) := by
  have hagain := d.rereads v a h
  refine ⟨hagain, ?_, ?_⟩
  · rw [rewrite, h]
    rfl
  · rw [rewrite, hagain]
    rfl

/-- A swipe given as an array, with nulls for targets, a direction as an object and whole numbers
for real ones. -/
theorem reread_swipe :
    let v : Value := .arr [.null, .arr [.ofNat 1, .ofNat 2], .obj [("up", .null)], .ofNat 300]
    let p : SwipeParams := ⟨none, some (.arr [.ofNat 1, .ofNat 2]), some .up, some (.ofNat 300),
      none, none⟩
    DataType.swipe.read v = .ok p ∧ DataType.swipe.read (DataType.swipe.write p) = .ok p := by
  intro v p
  have hread : DataType.swipe.read v = .ok p := rfl
  exact ⟨hread, (reread .swipe hread).1⟩

end DataType

end Runbook
