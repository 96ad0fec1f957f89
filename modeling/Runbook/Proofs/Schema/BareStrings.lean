/-
Bare strings: what a schema says of them, and what a check does.

`acceptsBareString` looks for the leaves behind the layers and asks every member of a union; a check
hands the text through the layers as it is, as long as these apply no function but the one that
writes scalars out, and takes the first member that accepts it. Unless a chain is in between, they
agree (`acceptsBareString_agrees`): where a bare string is acceptable, a
text comes out as it went in or is missing from an enumeration; where it is not, and there is but
one leaf, every text is of the wrong kind. Which texts come out is a relation that says nothing of
checking (`Takes`, `parse_text_ok_iff`).
-/
import Runbook.Proofs.Schema.Steps

namespace Runbook.Schema

mutual

/-- Whether no chain is met on the way to the leaves. The items of arrays and the fields of objects
are not on the way: no text gets there. -/
def chainFree : Schema → Bool
  | .pipe _ _ => false
  | .optional inner | .nullable inner | .withDefault inner _ | .preprocessed inner _ =>
    inner.chainFree
  | .union members => allChainFree members
  | _ => true

def allChainFree : List Schema → Bool
  | [] => true
  | s :: rest => s.chainFree && allChainFree rest

end

/-- The schema behind all layers. -/
def kernel : Schema → Schema
  | .optional inner | .nullable inner | .withDefault inner _ | .preprocessed inner _ =>
    inner.kernel
  | s => s

mutual

/-- A text has a place in a schema: behind the layers it gets to a leaf that has one for it. -/
def Takes (t : String) : Schema → Prop
  | .string | .any | .locator => True
  | .enumeration names => t ∈ names
  | .optional inner | .nullable inner | .withDefault inner _ | .preprocessed inner _ =>
    inner.Takes t
  | .union members => OneTakes t members
  | _ => False

def OneTakes (t : String) : List Schema → Prop
  | [] => False
  | s :: rest => s.Takes t ∨ OneTakes t rest

end

/-- The refusal of a text that an enumeration does not list. -/
def Unlisted (t path : String) (e : ParamError) : Prop :=
  ∃ names, t ∉ names ∧ e = ⟨path, .unlisted names t⟩

variable {t path : String}

/-! ## The texts that come out -/

mutual

/-- A text comes out as it went in, where it has a place. -/
theorem parse_text_ok_iff : ∀ {s : Schema} {w : Option Value}, s.chainFree = true →
    s.OnlyStringifies → (s.parse (some (.str t)) path = .ok w ↔ w = some (.str t) ∧ s.Takes t)
  | .optional inner, _, hs, hsteps | .nullable inner, _, hs, hsteps
  | .withDefault inner _, _, hs, hsteps => parse_text_ok_iff (s := inner) hs hsteps
  | .preprocessed inner _, _, hs, ⟨hstep, hsteps⟩ => by
    subst hstep
    exact parse_text_ok_iff (s := inner) hs hsteps
  | .union members, _, hs, hsteps => parseMembers_text_ok_iff hs hsteps
  | .string, _, _, _ | .any, _, _, _ | .locator, _, _, _ =>
    ⟨fun h => by cases h; exact ⟨rfl, trivial⟩, fun h => by rw [h.1]; rfl⟩
  | .enumeration names, _, _, _ => by
    simp only [parse_enumeration, present, List.contains_eq_mem, decide_eq_true_eq]
    by_cases hmem : t ∈ names
    · simp [Except.map, Takes, hmem, eq_comm]
    · simp [Except.map, Takes, hmem]
  | .number, _, _, _ | .integer, _, _, _ | .boolean, _, _, _ | .array _, _, _, _
  | .object _, _, _, _ => ⟨nofun, fun h => h.2.elim⟩

theorem parseMembers_text_ok_iff : ∀ {members : List Schema} {w : Option Value}
    {last : ParamError}, allChainFree members = true → MembersEachStep (· = stringify) members →
    (parseMembers members (some (.str t)) path last = .ok w ↔
      w = some (.str t) ∧ OneTakes t members)
  | [], _, _, _, _ => ⟨nofun, fun h => h.2.elim⟩
  | s :: rest, w, last, hs, hsteps => by
    simp only [allChainFree, Bool.and_eq_true] at hs
    simp only [parseMembers_cons, OneTakes]
    cases hparse : s.parse (some (.str t)) path with
    | ok v =>
      obtain ⟨rfl, htakes⟩ := (parse_text_ok_iff hs.1 hsteps.1).mp hparse
      exact ⟨fun h => by cases h; exact ⟨rfl, .inl htakes⟩, fun h => by rw [h.1]⟩
    | error e =>
      have htakes : ¬ s.Takes t := by
        intro h
        cases hparse.symm.trans ((parse_text_ok_iff hs.1 hsteps.1).mpr ⟨rfl, h⟩)
      rw [or_iff_right htakes]
      exact parseMembers_text_ok_iff hs.2 hsteps.2

end

/-! ## The texts that are refused -/

mutual

/-- Where a bare string is acceptable, no other refusal is possible. -/
theorem unlisted_of_acceptsBareString : ∀ {s : Schema} {e : ParamError}, s.chainFree = true →
    s.OnlyStringifies → s.acceptsBareString = true → s.parse (some (.str t)) path = .error e →
      Unlisted t path e
  | .optional inner, _, hs, hsteps, haccepts, h | .nullable inner, _, hs, hsteps, haccepts, h
  | .withDefault inner _, _, hs, hsteps, haccepts, h =>
    unlisted_of_acceptsBareString (s := inner) hs hsteps haccepts h
  | .preprocessed inner _, _, hs, ⟨hstep, hsteps⟩, haccepts, h => by
    subst hstep
    exact unlisted_of_acceptsBareString (s := inner) hs hsteps haccepts h
  | .enumeration names, _, _, _, _, h => by
    simp only [parse_enumeration, present] at h
    split at h
    · cases h
    · next hnames =>
      cases h
      exact ⟨names, by simpa using hnames, rfl⟩
  | .union members, _, hs, hsteps, haccepts, h => by
    simp only [acceptsBareString, Bool.and_eq_true, Bool.not_eq_true',
      List.isEmpty_eq_false_iff] at haccepts
    exact unlisted_of_allAcceptBareString hs hsteps haccepts.2
      (fun hnil => absurd hnil haccepts.1) h

/-- The error of the last member is the error of the union, so there has to be one. -/
theorem unlisted_of_allAcceptBareString : ∀ {members : List Schema} {last e : ParamError},
    allChainFree members = true → MembersEachStep (· = stringify) members →
    allAcceptBareString members = true → (members = [] → Unlisted t path last) →
    parseMembers members (some (.str t)) path last = .error e → Unlisted t path e
  | [], _, _, _, _, _, hlast, h => by
    cases h
    exact hlast rfl
  | s :: rest, _, _, hs, hsteps, haccepts, _, h => by
    simp only [allChainFree, Bool.and_eq_true] at hs
    simp only [allAcceptBareString, Bool.and_eq_true] at haccepts
    rw [parseMembers_cons] at h
    cases hparse : s.parse (some (.str t)) path with
    | ok w =>
      rw [hparse] at h
      cases h
    | error e' =>
      rw [hparse] at h
      have hunlisted : Unlisted t path e' :=
        unlisted_of_acceptsBareString hs.1 hsteps.1 haccepts.1 hparse
      exact unlisted_of_allAcceptBareString hs.2 hsteps.2 haccepts.2 (fun _ => hunlisted) h

end

/-- Of the single leaves that do not accept a bare string, all but two refuse every text. -/
theorem wrongKind_of_not_acceptsBareString : ∀ {s : Schema}, s.chainFree = true →
    s.OnlyStringifies → s.acceptsBareString = false → s.kernel ≠ .any → s.kernel ≠ .locator →
    (∀ members, s.kernel ≠ .union members) →
    ∃ wanted, s.parse (some (.str t)) path = wrongKind path wanted (.str t)
  | .optional inner, hs, hsteps, haccepts, hany, hlocator, hunion
  | .nullable inner, hs, hsteps, haccepts, hany, hlocator, hunion
  | .withDefault inner _, hs, hsteps, haccepts, hany, hlocator, hunion =>
    wrongKind_of_not_acceptsBareString (s := inner) hs hsteps haccepts hany hlocator hunion
  | .preprocessed inner _, hs, ⟨hstep, hsteps⟩, haccepts, hany, hlocator, hunion => by
    subst hstep
    exact wrongKind_of_not_acceptsBareString (s := inner) hs hsteps haccepts hany hlocator hunion
  | .any, _, _, _, hany, _, _ => absurd rfl hany
  | .locator, _, _, _, _, hlocator, _ => absurd rfl hlocator
  | .union members, _, _, _, _, _, hunion => absurd rfl (hunion members)
  | .number, _, _, _, _, _, _ | .integer, _, _, _, _, _, _ | .boolean, _, _, _, _, _, _
  | .array _, _, _, _, _, _, _ | .object _, _, _, _, _, _, _ => ⟨_, rfl⟩

/-! ## The introspection and the check -/

/-- **Bare strings, asked about and checked.** Of a schema without chains, which applies no function
but the one that writes scalars out, a check lets a text through exactly if it has a place there,
and then as it is.

Where a bare string is acceptable, a text that does not come out is missing from an enumeration: it
is never of the wrong kind, and it is never taken for absent. Where none is acceptable and the
layers end in a single leaf other than the two that are open, every text is of the wrong kind. -/
theorem acceptsBareString_agrees {s : Schema} (hs : s.chainFree = true)
    (hsteps : s.OnlyStringifies) :
    (∀ t path w, s.parse (some (.str t)) path = .ok w ↔ w = some (.str t) ∧ s.Takes t) ∧
    (s.acceptsBareString = true → ∀ t path,
      s.parse (some (.str t)) path = .ok (some (.str t)) ∨
        ∃ e, s.parse (some (.str t)) path = .error e ∧ Unlisted t path e) ∧
    (s.acceptsBareString = false → s.kernel ≠ .any → s.kernel ≠ .locator →
      (∀ members, s.kernel ≠ .union members) → ∀ t path,
      ∃ wanted, s.parse (some (.str t)) path = wrongKind path wanted (.str t)) := by
  refine ⟨fun t path w => parse_text_ok_iff hs hsteps, fun haccepts t path => ?_,
    fun haccepts hany hlocator hunion t path =>
      wrongKind_of_not_acceptsBareString hs hsteps haccepts hany hlocator hunion⟩
  cases hparse : s.parse (some (.str t)) path with
  | ok w =>
    obtain ⟨rfl, -⟩ := (parse_text_ok_iff hs hsteps).mp hparse
    exact .inl rfl
  | error e => exact .inr ⟨e, rfl, unlisted_of_acceptsBareString hs hsteps haccepts hparse⟩

/-- A lane of a board: one of two names, or else a third one that it has by default. -/
def lane : Schema :=
  .nullable (.union [.stringified (.enumeration ["left", "right"]),
    .optional (.withDefault (.enumeration ["middle"]) (.str "middle"))])

/-- A list of texts that may be left out. -/
def texts : Schema := .optional (.withDefault (.array .string) (.arr []))

/-- A lane takes a text that one of its members lists and refuses others; a list of texts is no
text, whatever the text says. -/
theorem acceptsBareString_agrees_lane :
    lane.chainFree = true ∧ lane.OnlyStringifies ∧ lane.acceptsBareString = true ∧
      lane.parse (some (.str "right")) "at" = .ok (some (.str "right")) ∧
      (∃ e, lane.parse (some (.str "up")) "at" = .error e ∧ Unlisted "up" "at" e) ∧
      texts.chainFree = true ∧ texts.OnlyStringifies ∧ texts.acceptsBareString = false ∧
      ∃ wanted, texts.parse (some (.str "[]")) "" = wrongKind "" wanted (.str "[]") := by
  have hlane : lane.chainFree = true := rfl
  have hlaneSteps : lane.OnlyStringifies := by
    simp [lane, OnlyStringifies, EachStep, MembersEachStep]
  have htexts : texts.chainFree = true := rfl
  have htextsSteps : texts.OnlyStringifies := trivial
  have htakes : lane.Takes "right" := by simp [lane, Takes, OneTakes]
  have hkernel : texts.kernel = .array .string := rfl
  obtain ⟨hiff, hnames, -⟩ := acceptsBareString_agrees hlane hlaneSteps
  obtain ⟨-, -, hwrong⟩ := acceptsBareString_agrees htexts htextsSteps
  refine ⟨hlane, hlaneSteps, rfl, (hiff _ _ _).mpr ⟨rfl, htakes⟩, ?_, htexts, htextsSteps, rfl, ?_⟩
  · exact (hnames rfl "up" "at").resolve_left fun hup => by cases hup
  · exact hwrong rfl (by simp [hkernel]) (by simp [hkernel]) (by simp [hkernel]) _ _

end Runbook.Schema
