/-
The device id of a loaded script.

The id is the value of a scalar of the document (`get?_deviceId`), so it is text if the scalar is
quoted, and what `Scalar.plain?_digits` says if it is a plain run of digits. Quoting is done on the
text, before placeholders are expanded: it reaches every id that is written behind its label
(`DeviceId.id?_quoted`), and such an id in the first place of the document stays text
(`value_leadingId`).
-/
import Runbook.Proofs.Script.Document
import Runbook.Proofs.Script.Quoting
import Runbook.Proofs.Yaml.Digits
import Runbook.Proofs.Yaml.Nested

namespace Runbook.Script

open Yaml

variable {env : Environment} {file : Option String} {anyTarget : Bool} {text : String}
  {s : Script} {fs : Object}

/-- The scalar that is the id of the android section, in the document that a text is read as. -/
def deviceId? (env : Environment) (text : String) : Option (ScalarStyle × String) :=
  (Placeholder.expand env (DeviceId.quote text).value).toOption.bind fun expanded =>
    (Document.tree? expanded).bind fun (n, anchors) =>
      (anchors.entry? "android" n).bind fun android =>
        (anchors.entry? "deviceId" android).bind fun id =>
          match anchors.behind? id with
          | some (.scalar none style id) => some (style, id)
          | _ => none

/-- The android target of a script has the entries of the section of the document. -/
theorem android_of_load (h : (load env file anyTarget text).run.value = .ok s)
    (htarget : s.target = some ⟨.android, fs⟩) :
    ∃ expanded doc, Placeholder.expand env (DeviceId.quote text).value = .ok expanded ∧
      Document.read? expanded = some (.obj doc) ∧
      (Fields.get? "android" doc = some (.obj fs) ∨
        Fields.get? "android" doc = some .null ∧ fs = []) := by
  obtain ⟨expanded, v, hexpanded, hread, hofValue⟩ := load_ok h
  obtain ⟨doc, rfl, hdoc, -⟩ := ofValue_ok hofValue
  have hsection := section?_of_target (hdoc.symm.trans htarget) nofun
  exact ⟨expanded, doc, hexpanded, hread, get?_of_section? hsection⟩

/-- The id is the value of its scalar. -/
theorem get?_deviceId (h : (load env file anyTarget text).run.value = .ok s)
    (htarget : s.target = some ⟨.android, fs⟩) {style : ScalarStyle} {id : String}
    (hid : deviceId? env text = some (style, id)) :
    ∃ v, Scalar.untagged? style id = some v ∧ Fields.get? "deviceId" fs = some v := by
  obtain ⟨expanded, doc, hexpanded, hread, handroid⟩ := android_of_load h htarget
  obtain ⟨expanded', hsame, hid⟩ := Option.bind_eq_some_iff.mp hid
  rw [hexpanded] at hsame
  cases hsame
  obtain ⟨⟨n, anchors⟩, htree, hid⟩ := Option.bind_eq_some_iff.mp hid
  obtain ⟨android, hentry, hid⟩ := Option.bind_eq_some_iff.mp hid
  obtain ⟨node, hnode, hid⟩ := Option.bind_eq_some_iff.mp hid
  have hscalar : anchors.behind? node = some (.scalar none style id) := by
    split at hid
    · next heq =>
      cases hid
      exact heq
    · cases hid
  obtain ⟨doc', w, hdoc', hw, hmeans⟩ := (Document.means_of_read? hread htree).entry hentry
  cases hdoc'
  obtain ⟨fs', v, rfl, hv, hvalue⟩ := hmeans.entry hnode
  rw [hw] at handroid
  rcases handroid with heq | ⟨heq, -⟩
  · cases heq
    exact ⟨v, hvalue.scalar hscalar, hv⟩
  · cases heq

/-! ## Ids behind their label -/

/-- A text whose first key is that of the android section, and the first key there that of an id
in digits. -/
def leadingId (layout : Layout) (blanks ds rest : List Char) : List Char :=
  "android".toList ++ ':' :: layout.gap ++ (DeviceId.label ++ blanks ++ ds ++ rest)

variable {layout : Layout} {outer inner blanks ds rest : List Char}

theorem mem_gap {c : Char} (h : c ∈ layout.gap) : c = '\n' ∨ c = ' ' ∨ c = '\x7b' := by
  cases layout <;> simp [Layout.gap] at h <;> tauto

/-- Quoting puts the id between quotes. -/
theorem quoted_leadingId (hblanks : ∀ b ∈ blanks, Text.isBlank b = true) (hne : ds ≠ [])
    (hds : ∀ d ∈ ds, Text.isDecimalDigit d = true)
    (hrest : ∀ c, rest.head? = some c → Text.isDecimalDigit c = false) :
    DeviceId.quoted (leadingId layout blanks ds rest) =
      nested layout "android".toList "deviceId".toList ds (DeviceId.quoted rest) := by
  have hname : DeviceId.isUnlabelled ("android".toList ++ [':']) = true := by decide
  have hgap : DeviceId.isUnlabelled layout.gap = true :=
    DeviceId.isUnlabelled_of_not_mem fun hmem => by
      rcases mem_gap hmem with heq | heq | heq <;> cases heq
  have hfront := DeviceId.isUnlabelled_append hname hgap
  rw [List.append_assoc] at hfront
  have hlabel : DeviceId.label = "deviceId".toList ++ [':'] := by decide
  unfold leadingId
  refine (DeviceId.quoted_label hfront hblanks hne hds hrest).trans ?_
  rw [hlabel]
  simp only [nested, List.append_assoc, List.cons_append, List.nil_append]

/-- Expanding leaves it there. -/
theorem expand_nested (houter : '$' ∉ outer) (hinner : '$' ∉ inner) (hds : '$' ∉ ds)
    {expanded : String} (hexpanded : Placeholder.expand env
      (String.ofList (nested layout outer inner ds rest)) = .ok expanded) :
    ∃ tail, expanded = String.ofList (nested layout outer inner ds tail) ∧
      (rest.head? ≠ some '$' → tail.head? = rest.head?) := by
  let front : List Char := outer ++ ':' :: (layout.gap ++ (inner ++ ':' :: ' ' :: '\'' ::
    (ds ++ ['\''])))
  have hfront : ∀ rest, nested layout outer inner ds rest = front ++ rest := fun rest => by
    simp only [nested, front, List.append_assoc, List.cons_append, List.nil_append]
  have hgap : '$' ∉ layout.gap := fun hmem => by
    rcases mem_gap hmem with heq | heq | heq <;> cases heq
  have hdollars : '$' ∉ front := by
    simp only [front, List.mem_append, List.mem_cons, List.not_mem_nil, houter, hinner, hgap, hds,
      Char.reduceEq, or_self, not_false_eq_true]
  rw [hfront] at hexpanded
  obtain ⟨tail, rfl, hhead⟩ := Placeholder.expand_append hdollars hexpanded
  exact ⟨tail, by rw [hfront], hhead⟩

theorem isVerbatim_of_digits (h : ∀ d ∈ ds, Text.isDecimalDigit d = true) : IsVerbatim ds := by
  have hne : ∀ d ∈ ds, ∀ c, Text.isDecimalDigit c = false → (d == c) = false := fun d hd c hc =>
    beq_false_of_ne (Text.ne_of_isDecimalDigit (h d hd) hc)
  refine ⟨fun d hd => ?_, fun d hd => ?_, fun hmem => ?_⟩
  · have hblank := Text.isBlank_of_isDecimalDigit (h d hd)
    simp only [Text.isBlank, Bool.or_eq_false_iff, beq_eq_false_iff_ne] at hblank
    have hseparator : isSeparator d = false := by
      simp only [isSeparator, Bool.or_eq_false_iff, beq_eq_false_iff_ne]
      tauto
    have hnext : (d.toNat == 0x85) = false := by
      rw [beq_eq_false_iff_ne]
      tauto
    rw [keepsLine, isBreak, hne d hd '\n' rfl, hne d hd '\r' rfl, hseparator, hnext]
    rfl
  · rw [isBlank, hne d hd ' ' rfl, hne d hd '\t' rfl]
    rfl
  · cases h _ hmem

/-- Such an id is read as text, whatever follows it and whatever the placeholders stand for. -/
theorem value_leadingId (hblanks : ∀ b ∈ blanks, Text.isBlank b = true) (hne : ds ≠ [])
    (hds : ∀ d ∈ ds, Text.isDecimalDigit d = true)
    (hrest : ∀ c, rest.head? = some c → Text.isDecimalDigit c = false)
    (hquote : rest.head? ≠ some '\'') (hdollar : rest.head? ≠ some '$') {expanded : String}
    {v : Value}
    (hexpanded : Placeholder.expand env
      (DeviceId.quote (String.ofList (leadingId layout blanks ds rest))).value = .ok expanded)
    (hread : Document.read? expanded = some v) :
    ∃ more others, v = .obj (Fields.ofEntries (("android", .obj (Fields.ofEntries
      (("deviceId", .str (String.ofList ds)) :: more))) :: others)) := by
  have handroid : IsWord "android".toList := ⟨by decide, List.all_eq_true.mp (by decide), by decide⟩
  have hid : IsWord "deviceId".toList := ⟨by decide, List.all_eq_true.mp (by decide), by decide⟩
  have hoccurs : DeviceId.occurs "android".toList
      (String.ofList (leadingId layout blanks ds rest)).toList = true := by
    rw [String.toList_ofList (l := leadingId layout blanks ds rest)]
    unfold leadingId
    rw [List.append_assoc]
    exact DeviceId.occurs_append handroid.ne_nil _
  have hdigits : '$' ∉ ds := fun hmem => by cases hds _ hmem
  rw [DeviceId.quote_value hoccurs, String.toList_ofList,
    quoted_leadingId hblanks hne hds hrest] at hexpanded
  obtain ⟨tail, rfl, hhead⟩ := expand_nested (by decide) (by decide) hdigits hexpanded
  rw [DeviceId.head?_quoted] at hhead
  have hvalue := read?_nested handroid hid (isVerbatim_of_digits hds) (by rwa [hhead hdollar]) hread
  rwa [String.ofList_toList, String.ofList_toList] at hvalue

/-- What becomes of the device id of a script for android. A quoted scalar is the text between its
quotes; a plain run of digits is text only after a leading zero, and else a number. Quoting leaves
no digits bare behind a label in the text, so an id that is written there is text; it is done
before placeholders are expanded, so what they stand for stays plain. -/
theorem load_deviceId (h : (load env file anyTarget text).run.value = .ok s)
    (htarget : s.target = some ⟨.android, fs⟩) :
    (∀ id, deviceId? env text = some (.quoted, id) →
      Fields.get? "deviceId" fs = some (.str id)) ∧
    (∀ ds, Scalar.IsRun ds → deviceId? env text = some (.plain, String.ofList ds) →
      Fields.get? "deviceId" fs = some (
        if Scalar.hasLeadingZero ds then .str (String.ofList ds)
        else if digitsToNat ds < 2 ^ 64 then .ofNat (digitsToNat ds)
        else (Scalar.real? (String.ofList ds)).getD (.str (String.ofList ds)))) ∧
    (DeviceId.occurs "android".toList text.toList = true →
      ∀ after, after <:+ (DeviceId.quote text).value.toList → DeviceId.id? after = none) ∧
    (∀ layout blanks ds rest, text = String.ofList (leadingId layout blanks ds rest) →
      (∀ b ∈ blanks, Text.isBlank b = true) → ds ≠ [] →
      (∀ d ∈ ds, Text.isDecimalDigit d = true) →
      (∀ c, rest.head? = some c → Text.isDecimalDigit c = false) →
      rest.head? ≠ some '\'' → rest.head? ≠ some '$' →
      ∃ more others,
        readText env (DeviceId.quote text).value = .ok (.obj (Fields.ofEntries (("android",
          .obj (Fields.ofEntries (("deviceId", .str (String.ofList ds)) :: more))) :: others))) ∧
        ("android" ∉ Fields.keys others → "deviceId" ∉ Fields.keys more →
          Fields.get? "deviceId" fs = some (.str (String.ofList ds)))) := by
  refine ⟨fun id hid => ?_, fun ds hds hid => ?_, fun hoccurs after hafter => ?_, ?_⟩
  · obtain ⟨v, hv, hget⟩ := get?_deviceId h htarget hid
    cases hv
    exact hget
  · obtain ⟨v, hv, hget⟩ := get?_deviceId h htarget hid
    rw [Scalar.untagged?, Scalar.plain?_digits hds] at hv
    rw [hget, ← hv]
    split_ifs with hzero hsmall hlarge
    · rfl
    · rfl
    · rw [if_neg hzero, if_neg hsmall, if_pos hlarge] at hv
      cases hv
    · rfl
  · rw [DeviceId.quote_value hoccurs, String.toList_ofList] at hafter
    exact DeviceId.id?_quoted hafter
  · rintro layout blanks ds rest rfl hblanks hne hds hrest hquote hdollar
    obtain ⟨expanded, doc, hexpanded, hread, handroid⟩ := android_of_load h htarget
    obtain ⟨more, others, hdoc⟩ :=
      value_leadingId hblanks hne hds hrest hquote hdollar hexpanded hread
    cases hdoc
    refine ⟨more, others, readText_of_read? hexpanded hread, fun hothers hmore => ?_⟩
    rw [Fields.get?_ofEntries_cons hothers] at handroid
    rcases handroid with heq | ⟨heq, -⟩
    · cases heq
      exact Fields.get?_ofEntries_cons hmore _
    · cases heq

theorem exists_android_of_load (h : ((load env file anyTarget text).run.value.toOption.bind
    fun s => s.target.map Target.kind) = some .android) :
    ∃ s fs, (load env file anyTarget text).run.value = .ok s ∧
      s.target = some ⟨.android, fs⟩ := by
  obtain ⟨s, hs, hkind⟩ := Option.bind_eq_some_iff.mp h
  obtain ⟨⟨kind, fs⟩, htarget, rfl⟩ := Option.map_eq_some_iff.mp hkind
  cases hload : (load env file anyTarget text).run.value with
  | error e =>
    rw [hload] at hs
    cases hs
  | ok s' =>
    rw [hload] at hs
    cases hs
    exact ⟨s, fs, rfl, htarget⟩

/-- Digits behind the label are text; the same digits out of a placeholder are a number. -/
theorem load_deviceId_written_expanded :
    (∃ s fs more others,
      (load (fun _ => none) none false "android:\n  deviceId: 777\ntasks: []\n").run.value = .ok s ∧
      s.target = some ⟨.android, fs⟩ ∧ Fields.get? "deviceId" fs = some (.str "777") ∧
      readText (fun _ => none) (DeviceId.quote "android:\n  deviceId: 777\ntasks: []\n").value =
        .ok (.obj (Fields.ofEntries (("android",
          .obj (Fields.ofEntries (("deviceId", .str "777") :: more))) :: others)))) ∧
    (∃ s fs,
      (load (fun _ => some "777") none false
        "android:\n  deviceId: $\x7bID\x7d\ntasks: []\n").run.value = .ok s ∧
      s.target = some ⟨.android, fs⟩ ∧ Fields.get? "deviceId" fs = some (.ofNat 777)) := by
  constructor
  · have hloads : ∃ s fs,
        (load (fun _ => none) none false "android:\n  deviceId: 777\ntasks: []\n").run.value =
          .ok s ∧ s.target = some ⟨.android, fs⟩ := exists_android_of_load (by decide +kernel)
    obtain ⟨s, fs, hload, htarget⟩ := hloads
    obtain ⟨hquoted, -, -, hleading⟩ := load_deviceId hload htarget
    obtain ⟨more, others, hread, -⟩ := hleading (.block 1) [' '] "777".toList
      "\ntasks: []\n".toList (by decide +kernel) (List.all_eq_true.mp rfl) (by decide)
      (List.all_eq_true.mp (by decide)) (fun c hc => by cases hc; rfl) (by decide) (by decide)
    exact ⟨s, fs, more, others, hload, htarget, hquoted "777" (by decide +kernel), hread⟩
  · have hloads : ∃ s fs,
        (load (fun _ => some "777") none false
          "android:\n  deviceId: $\x7bID\x7d\ntasks: []\n").run.value = .ok s ∧
        s.target = some ⟨.android, fs⟩ := exists_android_of_load (by decide +kernel)
    obtain ⟨s, fs, hload, htarget⟩ := hloads
    obtain ⟨-, hplain, -, -⟩ := load_deviceId hload htarget
    exact ⟨s, fs, hload, htarget, hplain "777".toList (by decide) (by decide +kernel)⟩

end Runbook.Script
