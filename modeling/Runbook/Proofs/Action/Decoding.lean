/-
What the standard actions make of parameters that have passed the check.

Each standard action describes its parameters twice, as a schema and as a typed record. The two
descriptions agree but for the counts of a swipe and of a cursor move: the schema takes a natural
number of 64 bits, and the record keeps one of 32. So parameters that pass the check are read
without error unless such a count does not fit (`hand_normalized`).
-/
import Runbook.Action
import Runbook.Proofs.Decode
import Runbook.Proofs.Schema.Accepted

namespace Runbook

open Decode.Record (Reads)

theorem Decode.choice_ok {α : Type} {names : List (String × α)} {t : String}
    (h : t ∈ Fields.keys names) : ∃ a, Decode.choice names (.str t) = .ok a := by
  cases hget : Fields.get? t names with
  | none => exact absurd h (Fields.get?_eq_none_iff.mp hget)
  | some a => exact ⟨a, by simp only [Decode.choice, hget]⟩

/-- A field that may be absent, of values that a member reads. -/
theorem Schema.Filled.reads_of_optional {α : Type} {f : Field} {fs fs' : Object} {inner : Schema}
    {read : Value → Decoded α} (h : Filled f fs fs') (hlocatable : f.locatable = false)
    (hschema : f.schema = .optional inner)
    (hread : ∀ x w path, x ≠ .null → inner.parse (some x) path = .ok w →
      ∃ y, w = some y ∧ ∃ a, read y = .ok a) :
    ∀ v, Fields.get? f.name fs' = some v → ∃ a, read v = .ok a := by
  intro v hv
  have hparse := h.parse hlocatable
  rw [hschema] at hparse
  rcases Schema.optional_ok hparse with ⟨-, hnone⟩ | ⟨x, -, hx, hinner⟩
  · exact absurd (hv.symm.trans hnone) nofun
  · obtain ⟨y, hy, hreads⟩ := hread x _ _ hx hinner
    obtain rfl : y = v := Option.some.inj (hy.symm.trans hv)
    exact hreads

namespace StandardAction

open Schema

variable {p q : Value}

/-! ## One action at a time -/

theorem decode_target {text : String} (h : (targetSchema text).normalize p = .ok q) :
    ∃ r, TargetParams.decode q = .ok r := by
  have hnames : ([(Field.target "locate").describe text].map Field.name).Nodup :=
    List.nodup_singleton _
  obtain ⟨fs, fs', rfl, rfl, hd, hfields⟩ := normalize_object_ok hnames h
  obtain ⟨x, hx⟩ := (hfields _ (List.mem_cons_self ..)).target rfl
  have hreads : TargetParams.record.Reads fs' := .map _ (.required hx rfl)
  exact hreads.decode hd "ActionLocateParam"

/-- The older name of a mode is among those the schema takes, and not among those that are read. -/
theorem renameMode_obj {fs : Object} {t : String} (hmode : Fields.get? "mode" fs = some (.str t))
    (ht : t ∈ ["replace", "clear", "typeOnly", "append"]) (hd : Fields.Distinct fs) :
    ∃ gs, InputParams.renameMode (.obj fs) = .obj gs ∧ Fields.Distinct gs ∧
      (∀ key, key ≠ "mode" → Fields.get? key gs = Fields.get? key fs) ∧
      ∃ t' ∈ Fields.keys InputMode.named, Fields.get? "mode" gs = some (.str t') := by
  by_cases happend : t = "append"
  · subst happend
    refine ⟨Fields.insert "mode" (.str "typeOnly") fs, ?_, Fields.distinct_insert hd,
      fun key hkey => ?_, "typeOnly", by decide, ?_⟩
    · simp only [InputParams.renameMode, hmode]
    · rw [Fields.get?_insert, if_neg hkey.symm]
    · rw [Fields.get?_insert, if_pos rfl]
  · refine ⟨fs, ?_, hd, fun _ _ => rfl, t, ?_, hmode⟩
    · unfold InputParams.renameMode
      simp only [hmode]
      split
      · next heq => simp_all
      · rfl
    · simp only [List.mem_cons, happend, List.not_mem_nil, or_false] at ht
      simpa [Fields.keys, InputMode.named] using ht

theorem decode_input (h : (schema .input).normalize p = .ok q) :
    ∃ r, InputParams.decode (InputParams.renameMode q) = .ok r := by
  obtain ⟨fs, fs', rfl, rfl, hd, hfields⟩ := normalize_object_ok (by decide) h
  simp only [List.forall_mem_cons] at hfields
  obtain ⟨hvalue, -, hmode, -⟩ := hfields
  obtain ⟨text, htext⟩ := string_ok (preprocessed_ok (hvalue.parse rfl))
  obtain ⟨t, ht, hmode⟩ := enumeration_ok (withDefault_ok (hmode.parse rfl))
  obtain ⟨gs, hgs, hd', hsame, t', ht', hmode'⟩ := renameMode_obj hmode ht hd
  obtain ⟨mode, hread⟩ := Decode.choice_ok ht'
  have htext' : Fields.get? "value" gs = some (.str text) := (hsame _ (by decide)).trans htext
  have hreads : InputParams.record.Reads gs :=
    .seq (.seq (.map _ (.required htext' rfl)) (.optional fun v _ => ⟨v, rfl⟩))
      (.required hmode' hread)
  rw [hgs]
  exact hreads.decode hd' "ActionInputParam"

theorem decode_keyboardPress (h : (schema .keyboardPress).normalize p = .ok q) :
    ∃ r, KeyPressParams.decode q = .ok r := by
  obtain ⟨fs, fs', rfl, rfl, hd, hfields⟩ := normalize_object_ok (by decide) h
  simp only [List.forall_mem_cons] at hfields
  obtain ⟨-, hkey, -⟩ := hfields
  obtain ⟨t, ht⟩ := string_ok (hkey.parse rfl)
  have hreads : KeyPressParams.record.Reads fs' :=
    .seq (.map _ (.optional fun v _ => ⟨v, rfl⟩)) (.required ht rfl)
  exact hreads.decode hd "ActionKeyboardPressParam"

theorem direction_ok {t : String} (h : t ∈ ["up", "down", "left", "right"]) :
    ∃ d, Direction.decode (.str t) = .ok d :=
  Decode.choice_ok (by simpa [Fields.keys, Direction.named] using h)

theorem number_read {v w : Option Value} {path : String} (h : Schema.number.parse v path = .ok w) :
    ∃ y, w = some y ∧ ∃ x, Decode.real y = .ok x := by
  obtain ⟨n, rfl⟩ := number_ok h
  exact ⟨_, rfl, _, rfl⟩

theorem decode_scroll (h : (schema .scroll).normalize p = .ok q) :
    ∃ r, ScrollParams.decode q = .ok r := by
  obtain ⟨fs, fs', rfl, rfl, hd, hfields⟩ := normalize_object_ok (by decide) h
  simp only [List.forall_mem_cons] at hfields
  obtain ⟨hdirection, htype, hdistance, -, -⟩ := hfields
  obtain ⟨t, ht, hdirection⟩ := enumeration_ok (withDefault_ok (hdirection.parse rfl))
  obtain ⟨k, hk, htype⟩ := enumeration_ok (withDefault_ok (htype.parse rfl))
  obtain ⟨direction, hreadDirection⟩ := direction_ok ht
  obtain ⟨type, hreadType⟩ := Decode.choice_ok hk
  have hreadDistance := hdistance.reads_of_optional rfl rfl fun x w path hx hw => by
    rcases nullable_ok hw with ⟨hnull, -⟩ | hnumber
    · exact absurd (Option.some.inj hnull) hx
    · exact number_read hnumber
  have hreads : ScrollParams.record.Reads fs' :=
    .seq (.seq (.seq (.map _ (.required hdirection hreadDirection)) (.required htype hreadType))
      (.optional hreadDistance)) (.optional fun v _ => ⟨v, rfl⟩)
  exact hreads.decode hd "ActionScrollParam"

theorem decode_drag (h : (schema .dragAndDrop).normalize p = .ok q) :
    ∃ r, DragParams.decode q = .ok r := by
  obtain ⟨fs, fs', rfl, rfl, hd, hfields⟩ := normalize_object_ok (by decide) h
  simp only [List.forall_mem_cons] at hfields
  obtain ⟨hfrom, hto, -⟩ := hfields
  obtain ⟨x, hx⟩ := hfrom.target rfl
  obtain ⟨y, hy⟩ := hto.target rfl
  have hreads : DragParams.record.Reads fs' := .seq (.map _ (.required hx rfl)) (.required hy rfl)
  exact hreads.decode hd "ActionDragAndDropParam"

theorem decode_longPress (h : (schema .longPress).normalize p = .ok q) :
    ∃ r, LongPressParams.decode q = .ok r := by
  obtain ⟨fs, fs', rfl, rfl, hd, hfields⟩ := normalize_object_ok (by decide) h
  simp only [List.forall_mem_cons] at hfields
  obtain ⟨hlocate, hduration, -⟩ := hfields
  obtain ⟨x, hx⟩ := hlocate.target rfl
  obtain ⟨n, -, hn⟩ := integer_ok (withDefault_ok (hduration.parse rfl))
  have hreads : LongPressParams.record.Reads fs' := by
    refine .seq (.map _ (.required hx rfl)) (.withDefault fun v hv => ⟨n, ?_⟩)
    obtain rfl : _ = v := Option.some.inj (hn.symm.trans hv)
    rfl
  exact hreads.decode hd "ActionLongPressParam"

/-! ## Counts -/

/-- The parameter that the schema takes as a count of 64 bits and the record keeps as one of 32. -/
def count? : StandardAction → Option String
  | .swipe => some "repeat"
  | .cursorMove => some "times"
  | _ => none

/-- The parameters have a count that does not fit. -/
def Overflows (a : StandardAction) (p : Value) (n : UInt64) : Prop :=
  ∃ key, a.count? = some key ∧ p.field? key = some (.num (.nat n)) ∧ 0x100000000 ≤ n.toNat

theorem natural32_ok {n : UInt64} (h : n.toNat < 0x100000000) :
    Decode.natural32 (.num (.nat n)) = .ok (UInt32.ofNat n.toNat) := if_pos h

theorem natural32_error {n : UInt64} (h : 0x100000000 ≤ n.toNat) :
    Decode.natural32 (.num (.nat n)) = .error (.invalidValue (.integer n.toNat) "u32") :=
  if_neg (Nat.not_lt.mpr h)

/-- A swipe reads what the schema accepts, but for a number of repetitions that does not fit. -/
theorem decode_swipe (h : (schema .swipe).normalize p = .ok q) :
    (∃ n, Overflows .swipe p n ∧
      SwipeParams.decode q = .error (.invalidValue (.integer n.toNat) "u32")) ∨
    (∀ n, ¬ Overflows .swipe p n) ∧ ∃ r, SwipeParams.decode q = .ok r := by
  obtain ⟨fs, fs', rfl, rfl, hd, hfields⟩ := normalize_object_ok (by decide) h
  simp only [List.forall_mem_cons] at hfields
  obtain ⟨-, -, hdirection, hdistance, hduration, hrepeat, -⟩ := hfields
  have hreadDirection := hdirection.reads_of_optional rfl rfl fun x w path _ hw => by
    obtain ⟨t, ht, rfl⟩ := enumeration_ok hw
    exact ⟨_, rfl, direction_ok ht⟩
  have hreadDistance := hdistance.reads_of_optional rfl rfl fun x w path _ hw => number_read hw
  obtain ⟨duration, -, hget⟩ := integer_ok (withDefault_ok (hduration.parse rfl))
  have hreadDuration : ∀ v, Fields.get? "duration" fs' = some v →
      ∃ n, Decode.natural64 v = .ok n := by
    intro v hv
    obtain rfl : _ = v := Option.some.inj (hget.symm.trans hv)
    exact ⟨_, rfl⟩
  have hothers : Reads (SwipeParams.mk <$> .optional "start" Decode.any
      <*> .optional "end" Decode.any <*> .optional "direction" Direction.decode
      <*> .optional "distance" Decode.real <*> .optional "duration" Decode.natural64) fs' :=
    .seq (.seq (.seq (.seq (.map _ (.optional fun v _ => ⟨v, rfl⟩)) (.optional fun v _ => ⟨v, rfl⟩))
      (.optional hreadDirection)) (.optional hreadDistance)) (.optional hreadDuration)
  rcases optional_ok (hrepeat.parse rfl) with ⟨hinput, hnone⟩ | ⟨x, hinput, -, hinner⟩
  · refine .inr ⟨?_, ?_⟩
    · rintro n ⟨key, hkey, hn, -⟩
      cases hkey
      rcases hinput with hinput | hinput <;> exact absurd (hn.symm.trans hinput) nofun
    · have hreads : SwipeParams.record.Reads fs' :=
        hothers.seq (.optional fun v hv => absurd (hv.symm.trans hnone) nofun)
      exact hreads.decode hd "ActionSwipeParam"
  · obtain ⟨n, hx, hrepeat⟩ := integer_ok hinner
    rw [hx] at hinput
    by_cases hn : n.toNat < 0x100000000
    · refine .inr ⟨?_, ?_⟩
      · rintro n' ⟨key, hkey, hn', hlarge⟩
        cases hkey
        cases hn'.symm.trans hinput
        omega
      · have hreads : SwipeParams.record.Reads fs' := by
          refine hothers.seq (.optional fun v hv => ⟨UInt32.ofNat n.toNat, ?_⟩)
          obtain rfl : _ = v := Option.some.inj (hrepeat.symm.trans hv)
          exact natural32_ok hn
        exact hreads.decode hd "ActionSwipeParam"
    · have hn := Nat.not_lt.mp hn
      refine .inl ⟨n, ⟨"repeat", rfl, hinput, hn⟩, ?_⟩
      refine Decode.Record.decode_of_last_refused hd hothers rfl (by decide) hrepeat ?_ _
      simp only [Decode.nullable, natural32_error hn]
      rfl

theorem decode_cursorMove (h : (schema .cursorMove).normalize p = .ok q) :
    (∃ n, Overflows .cursorMove p n ∧
      CursorParams.decode q = .error (.invalidValue (.integer n.toNat) "u32")) ∨
    (∀ n, ¬ Overflows .cursorMove p n) ∧ ∃ r, CursorParams.decode q = .ok r := by
  obtain ⟨fs, fs', rfl, rfl, hd, hfields⟩ := normalize_object_ok (by decide) h
  simp only [List.forall_mem_cons] at hfields
  obtain ⟨hdirection, htimes, -⟩ := hfields
  obtain ⟨t, ht, hdirection⟩ := enumeration_ok (hdirection.parse rfl)
  have ht : t ∈ Fields.keys CursorDirection.named := ht
  obtain ⟨direction, hreadDirection⟩ := Decode.choice_ok ht
  obtain ⟨n, hinput, htimes⟩ := integer_ok (withDefault_ok (htimes.parse rfl))
  have hothers : Reads (CursorParams.mk <$>
      .required "direction" (Decode.choice CursorDirection.named)) fs' :=
    .map _ (.required hdirection hreadDirection)
  by_cases hn : n.toNat < 0x100000000
  · refine .inr ⟨?_, ?_⟩
    · rintro n' ⟨key, hkey, hn', hlarge⟩
      cases hkey
      have hgiven : Fields.get? "times" fs = some (.num (.nat n')) := hn'
      simp only [Field.name, Field.describe, Field.plain, hgiven, Option.some_or] at hinput
      cases hinput
      omega
    · have hreads : CursorParams.record.Reads fs' :=
        hothers.seq (.required htimes (natural32_ok hn))
      exact hreads.decode hd "ActionCursorMoveParam"
  · have hn := Nat.not_lt.mp hn
    have hgiven : Fields.get? "times" fs = some (.num (.nat n)) := by
      cases hget : Fields.get? "times" fs with
      | none =>
        simp only [Field.name, Field.describe, Field.plain, hget, Option.none_or] at hinput
        cases hinput
        exact absurd hn (by decide)
      | some v =>
        simpa only [Field.name, Field.describe, Field.plain, hget, Option.some_or] using hinput
    refine .inl ⟨n, ⟨"times", rfl, hgiven, hn⟩, ?_⟩
    refine Decode.Record.decode_of_last_refused hd hothers rfl (by decide) htimes ?_ _
    simp only [natural32_error hn]
    rfl

theorem decode_sleep (h : (schema .sleep).normalize p = .ok q) :
    ∃ r, SleepParams.decode q = .ok r := by
  obtain ⟨fs, fs', rfl, rfl, hd, hfields⟩ := normalize_object_ok (by decide) h
  simp only [List.forall_mem_cons] at hfields
  obtain ⟨n, -, hn⟩ := integer_ok (withDefault_ok (hfields.1.parse rfl))
  have hreads : SleepParams.record.Reads fs' := .map _ (.required hn rfl)
  exact hreads.decode hd "ActionSleepParam"

end StandardAction

namespace Action

theorem normalize_standard {a : StandardAction} {p q : Value}
    (h : (Action.standard a).normalize p = .ok q) : a.schema.normalize p = .ok q := by
  simp only [Action.normalize, Action.standard] at h
  split at h
  · next v hv =>
    cases h
    exact hv
  · cases h

/-- **Parameters that pass the check are read**: a standard action reads what its schema accepts,
but for a count that does not fit, which is refused when the action is called. -/
theorem hand_normalized (a : StandardAction) {p q : Value}
    (h : (Action.standard a).normalize p = .ok q) :
    (∃ n, a.Overflows p n ∧
      (Action.standard a).hand q = .error (.invalidValue (.integer n.toNat) "u32")) ∨
    (∀ n, ¬ a.Overflows p n) ∧ ∃ params, (Action.standard a).hand q = .ok (.typed params) := by
  have hschema := normalize_standard h
  have none : a.count? = none → ∀ n, ¬ a.Overflows p n := by
    rintro hnone n ⟨key, hkey, -⟩
    rw [hnone] at hkey
    cases hkey
  show (∃ n, a.Overflows p n ∧ (a.decode q).map Handed.typed = _) ∨
    _ ∧ ∃ params, (a.decode q).map Handed.typed = _
  cases a with
  | swipe =>
    rcases StandardAction.decode_swipe hschema with ⟨n, hn, herror⟩ | ⟨hnone, r, hr⟩
    · exact .inl ⟨n, hn, by simp only [StandardAction.decode, herror]; rfl⟩
    · exact .inr ⟨hnone, .swipe r, by simp only [StandardAction.decode, hr]; rfl⟩
  | cursorMove =>
    rcases StandardAction.decode_cursorMove hschema with ⟨n, hn, herror⟩ | ⟨hnone, r, hr⟩
    · exact .inl ⟨n, hn, by simp only [StandardAction.decode, herror]; rfl⟩
    · exact .inr ⟨hnone, .cursor r, by simp only [StandardAction.decode, hr]; rfl⟩
  | tap | rightClick | doubleClick | hover | clearInput =>
    obtain ⟨r, hr⟩ := StandardAction.decode_target hschema
    exact .inr ⟨none rfl, .target r, by simp only [StandardAction.decode, hr]; rfl⟩
  | input =>
    obtain ⟨r, hr⟩ := StandardAction.decode_input hschema
    exact .inr ⟨none rfl, .input r, by simp only [StandardAction.decode, hr]; rfl⟩
  | keyboardPress =>
    obtain ⟨r, hr⟩ := StandardAction.decode_keyboardPress hschema
    exact .inr ⟨none rfl, .keyPress r, by simp only [StandardAction.decode, hr]; rfl⟩
  | scroll =>
    obtain ⟨r, hr⟩ := StandardAction.decode_scroll hschema
    exact .inr ⟨none rfl, .scroll r, by simp only [StandardAction.decode, hr]; rfl⟩
  | dragAndDrop =>
    obtain ⟨r, hr⟩ := StandardAction.decode_drag hschema
    exact .inr ⟨none rfl, .drag r, by simp only [StandardAction.decode, hr]; rfl⟩
  | longPress =>
    obtain ⟨r, hr⟩ := StandardAction.decode_longPress hschema
    exact .inr ⟨none rfl, .longPress r, by simp only [StandardAction.decode, hr]; rfl⟩
  | sleep =>
    obtain ⟨r, hr⟩ := StandardAction.decode_sleep hschema
    exact .inr ⟨none rfl, .sleep r, by simp only [StandardAction.decode, hr]; rfl⟩

/-- A cursor that is to move by more characters than it can count to. -/
theorem hand_normalized_cursorMove :
    let p : Value := .obj [("direction", .str "left"), ("times", .num (.nat 0x100000000))]
    (Action.standard .cursorMove).normalize p = .ok p ∧
      (Action.standard .cursorMove).hand p =
        .error (.invalidValue (.integer 0x100000000) "u32") := by
  intro p
  have hnormalize : (Action.standard .cursorMove).normalize p = .ok p := by rfl
  refine ⟨hnormalize, ?_⟩
  rcases hand_normalized .cursorMove hnormalize with ⟨n, ⟨key, hkey, hn, -⟩, herror⟩ | ⟨hnone, -⟩
  · cases hkey
    cases hn
    exact herror
  · exact absurd ⟨"times", rfl, rfl, by decide⟩ (hnone 0x100000000)

end Action

end Runbook
