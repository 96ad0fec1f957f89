/-
The text of a pause, and the number it stands for.

The milliseconds of a pause may be written as a text. What counts is the integer in front, and that
it is at least one (`leadingInteger?_of_spellsPause`, `exists_spellsPause`); then the step is the
one that has the number in place of the text (`resolve_sleep_text`). What follows the digits is not
looked at.
-/
import Runbook.Proofs.Binary64
import Runbook.Proofs.Step.Rules
import Runbook.Proofs.Text

namespace Runbook.Step

open Item (resultName?)

variable {registry : Registry} {item : Item} {s : String} {cs : List Char} {n : Nat}

/-! ## The integer in front -/

/-- The natural number that characters begin with, as far as signed integers of 64 bits go. -/
def leadingNatural? (cs : List Char) : Option Nat :=
  let digits := cs.takeWhile isAsciiDigit
  if digits.isEmpty || decide (0x8000000000000000 ≤ digitsToNat digits) then none
  else some (digitsToNat digits)

/-- Digits that write a number, and then anything that does not go on with a digit. -/
def BeginsWith (cs : List Char) (n : Nat) : Prop :=
  ∃ ds rest, cs = ds ++ rest ∧ ds ≠ [] ∧ (∀ d ∈ ds, isAsciiDigit d = true) ∧
    (∀ c, rest.head? = some c → isAsciiDigit c = false) ∧ digitsToNat ds = n

theorem leadingNatural?_eq_some_iff :
    leadingNatural? cs = some n ↔ BeginsWith cs n ∧ n < 0x8000000000000000 := by
  constructor
  · intro h
    unfold leadingNatural? at h
    dsimp only at h
    split at h
    · cases h
    · next hif =>
      cases h
      simp only [Bool.or_eq_true, List.isEmpty_iff, decide_eq_true_eq, not_or] at hif
      exact ⟨⟨_, _, List.takeWhile_append_dropWhile.symm, hif.1,
        List.all_eq_true.mp List.all_takeWhile, fun c hc => Text.head?_dropWhile hc, rfl⟩,
        by omega⟩
  · rintro ⟨⟨ds, rest, rfl, hne, hds, hrest, rfl⟩, hn⟩
    have htake := (Text.takeWhile_run hds hrest).1
    have hif : ¬ (ds.isEmpty || decide (0x8000000000000000 ≤ digitsToNat ds)) = true := by
      simp only [Bool.or_eq_true, List.isEmpty_iff, decide_eq_true_eq, not_or]
      exact ⟨hne, by omega⟩
    unfold leadingNatural?
    dsimp only
    rw [htake, if_neg hif]

/-- A sign is looked for behind the blanks. -/
theorem leadingInteger?_eq (s : String) : leadingInteger? s =
    match Text.trimStart s.toList with
    | '-' :: rest => (leadingNatural? rest).map fun n : Nat => -(n : Int)
    | '+' :: rest => (leadingNatural? rest).map fun n : Nat => (n : Int)
    | cs => (leadingNatural? cs).map fun n : Nat => (n : Int) := by
  have hsigned : ∀ (negative : Bool) (cs : List Char),
      (let digits := cs.takeWhile isAsciiDigit
        let n := digitsToNat digits
        if digits.isEmpty || decide (0x8000000000000000 ≤ n) then none
        else some (if negative then -(n : Int) else n)) =
      (leadingNatural? cs).map fun n : Nat => if negative then -(n : Int) else n := by
    intro negative cs
    unfold leadingNatural?
    dsimp only
    split <;> rfl
  unfold leadingInteger?
  generalize Text.trimStart s.toList = cs
  split
  · exact hsigned true _
  · exact hsigned false _
  · next hminus hplus =>
    dsimp only
    split
    · exact absurd rfl (hminus _)
    · exact absurd rfl (hplus _)
    · exact hsigned false _

/-- The text of a pause of so many milliseconds: blanks, at most one plus sign, the digits of a
number from one to the largest signed integer of 64 bits, and then anything that does not go on
with a digit. -/
def SpellsPause (s : String) (n : Nat) : Prop :=
  ∃ blanks sign cs, s.toList = blanks ++ sign ++ cs ∧ (∀ b ∈ blanks, Text.isBlank b = true) ∧
    (sign = [] ∨ sign = ['+']) ∧ BeginsWith cs n ∧ 1 ≤ n ∧ n ≤ 2 ^ 63 - 1

theorem SpellsPause.bounds (h : SpellsPause s n) : 1 ≤ n ∧ n ≤ 2 ^ 63 - 1 := by
  obtain ⟨-, -, -, -, -, -, -, hn⟩ := h
  exact hn

theorem BeginsWith.head (h : BeginsWith cs n) : ∃ d rest, cs = d :: rest ∧ isAsciiDigit d = true := by
  obtain ⟨ds, rest, rfl, hne, hds, -⟩ := h
  obtain ⟨d, ds, rfl⟩ := List.exists_cons_of_ne_nil hne
  exact ⟨d, ds ++ rest, rfl, hds d (by simp)⟩

theorem leadingInteger?_of_spellsPause (h : SpellsPause s n) : leadingInteger? s = some (n : Int) := by
  obtain ⟨blanks, sign, cs, hs, hblanks, hsign, hbegins, -, hn⟩ := h
  have hread : leadingNatural? cs = some n := leadingNatural?_eq_some_iff.mpr ⟨hbegins, by omega⟩
  obtain ⟨d, rest, hcs, hd⟩ := hbegins.head
  rw [leadingInteger?_eq, hs, List.append_assoc, Text.trimStart]
  rcases hsign with rfl | rfl
  · have hblank := Text.isBlank_of_isDecimalDigit (Text.isDecimalDigit_of_isAsciiDigit hd)
    have htrim : (blanks ++ ([] ++ cs)).dropWhile Text.isBlank = cs :=
      (Text.takeWhile_run hblanks (by rw [List.nil_append, hcs]; rintro c ⟨⟩; exact hblank)).2
    rw [htrim]
    split
    · cases hcs
      cases hd
    · cases hcs
      cases hd
    · rw [hread]
      rfl
  · have htrim : (blanks ++ (['+'] ++ cs)).dropWhile Text.isBlank = '+' :: cs :=
      (Text.takeWhile_run hblanks (by rintro c ⟨⟩; rfl)).2
    rw [htrim]
    show (leadingNatural? cs).map (fun n : Nat => (n : Int)) = _
    rw [hread]
    rfl

/-- A positive integer is read where a pause is spelt, and nowhere else. -/
theorem exists_spellsPause {i : Int} (h : leadingInteger? s = some i) (hi : 0 < i) :
    ∃ n, SpellsPause s n := by
  have htext := List.takeWhile_append_dropWhile (p := Text.isBlank) (l := s.toList)
  have hblanks : ∀ b ∈ s.toList.takeWhile Text.isBlank, Text.isBlank b = true :=
    List.all_eq_true.mp List.all_takeWhile
  rw [leadingInteger?_eq] at h
  split at h
  · obtain ⟨n, -, rfl⟩ := Option.map_eq_some_iff.mp h
    omega
  · next rest hrest =>
    obtain ⟨n, hread, rfl⟩ := Option.map_eq_some_iff.mp h
    obtain ⟨hbegins, hn⟩ := leadingNatural?_eq_some_iff.mp hread
    rw [← Text.trimStart, hrest] at htext
    exact ⟨n, _, ['+'], rest, by rw [List.append_assoc]; exact htext.symm, hblanks, .inr rfl,
      hbegins, by omega, by omega⟩
  · obtain ⟨n, hread, rfl⟩ := Option.map_eq_some_iff.mp h
    obtain ⟨hbegins, hn⟩ := leadingNatural?_eq_some_iff.mp hread
    exact ⟨n, _, [], _, by rw [List.append_nil]; exact htext.symm, hblanks, .inl rfl, hbegins,
      by omega, by omega⟩

/-! ## The step -/

theorem buildSleep_text (hsleep : Fields.get? "sleep" item = some (.str s))
    (hs : SpellsPause s n) :
    buildSleep item = pure (.pause (microseconds (.ofNat n))) := by
  obtain ⟨hn, -⟩ := hs.bounds
  have hpos : Binary64.zero < Binary64.ofInt n := Binary64.zero_lt_ofInt_iff.mpr (by omega)
  simp only [buildSleep, hsleep, Value.ofOption, milliseconds?, leadingInteger?_of_spellsPause hs,
    Option.map_some, if_pos hpos]
  rfl

theorem buildSleep_number (hsleep : Fields.get? "sleep" item = some (.num (.nat (UInt64.ofNat n))))
    (hn : 1 ≤ n) (hlt : n < 2 ^ 64) :
    buildSleep item = pure (.pause (microseconds (.ofNat n))) := by
  have hnumber : (UInt64.ofNat n).toNat = n := UInt64.toNat_ofNat_of_lt' hlt
  have hpos : Binary64.zero < Binary64.ofNat n := Binary64.zero_lt_ofInt_iff.mpr (by omega)
  simp only [buildSleep, hsleep, Value.ofOption, milliseconds?, Number.toBinary64, hnumber,
    if_pos hpos]

theorem buildSleep_refused (hsleep : Fields.get? "sleep" item = some (.str s))
    (hs : ¬ ∃ n, SpellsPause s n) : buildSleep item = throw (.invalidSleep (.str s)) := by
  simp only [buildSleep, hsleep, Value.ofOption, milliseconds?]
  cases hread : leadingInteger? s with
  | none => rfl
  | some i =>
    have hnot : ¬ Binary64.zero < Binary64.ofInt i := fun hpos =>
      hs (exists_spellsPause hread (Binary64.zero_lt_ofInt_iff.mp hpos))
    simp only [Option.map_some, if_neg hnot]

/-- An item keeps its rule if the value under the key of a pause is another one. -/
theorem ruleOf?_insert_sleep (h : ruleOf? registry item = some .sleep) (v : Value) :
    ruleOf? registry (Fields.insert "sleep" v item) = some .sleep := by
  refine ruleOf?_eq_some ?_ fun r hr => ?_
  · show Fields.contains "sleep" _ = true
    rw [Fields.contains_iff_get?, Fields.get?_insert, if_pos rfl]
    rfl
  · have hne : r ≠ .action := fun heq => Rule.action_not_mem_above _ (heq ▸ hr)
    have hkeys : ∀ r ∈ Rule.above .sleep, "sleep" ∉ r.keys := by decide
    rw [← spares_of_ruleOf? h r hr, Rule.applies_eq_hasAny hne, Rule.applies_eq_hasAny hne]
    refine Item.hasAny_congr fun key hkey => ?_
    rw [Fields.get?_insert, if_neg]
    rintro rfl
    exact hkeys r hr hkey

/-- **The text of a pause stands for a number.** A step that is a pause with a text resolves if and
only if the text spells a number of milliseconds; then it is the same step as with that number in
place of the text. Else it fails, and the error shows the text as it is. -/
theorem resolve_sleep_text (hrule : ruleOf? registry item = some .sleep)
    (hsleep : Fields.get? "sleep" item = some (.str s)) :
    ((∃ step, (resolve registry item).run.value = .ok step) ↔ ∃ n, SpellsPause s n) ∧
      (∀ n, SpellsPause s n → ∃ micros,
        resolve registry item = pure ⟨.sleep, resultName? item, .pause micros⟩ ∧
        resolve registry (Fields.insert "sleep" (.num (.nat (UInt64.ofNat n))) item) =
          pure ⟨.sleep, resultName? item, .pause micros⟩) ∧
      ((¬ ∃ n, SpellsPause s n) → resolve registry item = throw (.invalidSleep (.str s))) ∧
      (Error.invalidSleep (.str s)).message =
        "ms for sleep must be greater than 0, but got " ++ s := by
  have htext : ∀ n, SpellsPause s n → resolve registry item =
      pure ⟨.sleep, resultName? item, .pause (microseconds (.ofNat n))⟩ := by
    intro n hs
    rw [resolve_of_ruleOf? hrule]
    show (buildSleep item >>= _) = _
    rw [buildSleep_text hsleep hs]
    rfl
  have hrefused : (¬ ∃ n, SpellsPause s n) →
      resolve registry item = throw (.invalidSleep (.str s)) := by
    intro hs
    rw [resolve_of_ruleOf? hrule]
    show (buildSleep item >>= _) = _
    rw [buildSleep_refused hsleep hs]
    rfl
  refine ⟨⟨?_, ?_⟩, fun n hs => ⟨_, htext n hs, ?_⟩, hrefused, rfl⟩
  · rintro ⟨step, hstep⟩
    by_contra hs
    rw [hrefused hs] at hstep
    cases hstep
  · rintro ⟨n, hs⟩
    rw [htext n hs]
    exact ⟨_, rfl⟩
  · have hname : resultName? (Fields.insert "sleep" (.num (.nat (UInt64.ofNat n))) item) =
        resultName? item := by
      unfold resultName?
      rw [Fields.get?_insert, if_neg (by decide)]
    have hnumber : buildSleep (Fields.insert "sleep" (.num (.nat (UInt64.ofNat n))) item) =
        pure (.pause (microseconds (.ofNat n))) := by
      obtain ⟨hn, hmax⟩ := hs.bounds
      refine buildSleep_number ?_ hn (by omega)
      rw [Fields.get?_insert, if_pos rfl]
    rw [resolve_of_ruleOf? (ruleOf?_insert_sleep hrule _), hname]
    show (buildSleep _ >>= _) = _
    rw [hnumber]
    rfl

/-- Blanks, a sign and leading zeros are passed over, and so is what follows the digits. -/
theorem resolve_sleep_text_unit :
    let item : Item := [("name", .str "rest"), ("sleep", .str " +0020ms")]
    ruleOf? .empty item = some .sleep ∧ Fields.get? "sleep" item = some (.str " +0020ms") ∧
      ∃ micros, resolve .empty item = pure ⟨.sleep, some "rest", .pause micros⟩ ∧
        resolve .empty [("name", .str "rest"), ("sleep", .num (.nat 20))] =
          pure ⟨.sleep, some "rest", .pause micros⟩ := by
  intro item
  have hs : SpellsPause " +0020ms" 20 :=
    ⟨[' '], ['+'], "0020ms".toList, by decide, List.all_eq_true.mp rfl, .inr rfl,
      ⟨"0020".toList, "ms".toList, by decide, by decide, List.all_eq_true.mp (by decide),
        fun c hc => by cases hc; rfl, by decide⟩, by decide, by decide⟩
  have hsleep : Fields.get? "sleep" item = some (.str " +0020ms") := rfl
  have hrule : ruleOf? .empty item = some .sleep := rfl
  exact ⟨hrule, hsleep, (resolve_sleep_text hrule hsleep).2.1 20 hs⟩

end Runbook.Step
