/-
What a document holds under a key.

The evaluation of a document counts how deep it is and how many aliases it has followed. Neither
shows in what it comes to, so `Means` leaves both open. The value of a mapping is put together
from the values of its entries (`Means.mapping`), the last of which counts for a key, so going
down to an entry of the value and evaluating the entry of the node are the same (`Means.entry`).
-/
import Mathlib.Data.List.Forall2
import Runbook.Proofs.Fields
import Runbook.Proofs.Yaml.Reading
import Runbook.Yaml.Document

namespace Runbook.Yaml

open Document

namespace Anchors

variable {anchors : Anchors} {key : String} {n m : Node} {v : Value}

/-- The node that a node stands for. -/
def behind? (anchors : Anchors) : Node → Option Node
  | .alias slot => anchors.node? slot
  | n => some n

/-- The text of a scalar. -/
def text? (anchors : Anchors) (n : Node) : Option String :=
  match anchors.behind? n with
  | some (.scalar _ _ text) => some text
  | _ => none

/-- The node under a key of a mapping; of several the last. -/
def entry? (anchors : Anchors) (key : String) (n : Node) : Option Node :=
  match anchors.behind? n with
  | some (.mapping _ entries) =>
    (entries.reverse.find? fun e => anchors.text? e.1 == some key).map Prod.snd
  | _ => none

/-- The node evaluates to the value, however deep it may be and however many aliases may be
followed. -/
def Means (anchors : Anchors) (n : Node) (v : Value) : Prop :=
  ∃ depth left left', value anchors depth n left = some (v, left')

/-- An entry of a mapping, and what it is read as. -/
def EntryMeans (anchors : Anchors) (e : Node × Node) (r : String × Value) : Prop :=
  anchors.text? e.1 = some r.1 ∧ anchors.Means e.2 r.2

end Anchors

namespace Document

variable {anchors : Anchors} {n m : Node} {left left' : Nat}

theorem behind?_of_follow (h : follow anchors n left = some (m, left')) :
    anchors.behind? n = some m := by
  cases n with
  | «alias» slot =>
    simp only [follow] at h
    split at h
    · next more found hfound =>
      cases h
      exact hfound
    · cases h
  | _ =>
    cases h
    rfl

theorem text?_of_key {text : String} (h : key anchors n left = some (text, left')) :
    anchors.text? n = some text := by
  obtain ⟨m, mid, hfollow, hm⟩ := bind_eq_some h
  have hbehind := behind?_of_follow hfollow
  cases m with
  | scalar tag style content =>
    cases hm
    simp only [Anchors.text?, hbehind]
  | _ => cases hm

/-- Evaluation looks behind an alias first, and then at the node there with or without a reader
for its parts. -/
theorem value_eq_some {depth : Nat} {v : Value}
    (h : value anchors depth n left = some (v, left')) :
    ∃ part, valueOf anchors part n left = some (v, left') ∧
      ∀ read, part = some read → ∃ d, read = value anchors d := by
  cases depth with
  | zero => exact ⟨none, h, nofun⟩
  | succ d => exact ⟨some (value anchors d), h, fun read heq => ⟨d, (Option.some.inj heq).symm⟩⟩

/-- Entries that are read one after another. -/
theorem entries_mean {depth : Nat} {entries : List (Node × Node)} {read : List (String × Value)}
    (h : (entries.mapM fun (k, v) => do
      let name ← key anchors k
      let content ← value anchors depth v
      pure (name, content) : Evaluation (List (String × Value))) left = some (read, left')) :
    List.Forall₂ anchors.EntryMeans entries read := by
  induction entries generalizing left read with
  | nil =>
    cases h
    exact .nil
  | cons e entries ih =>
    obtain ⟨k, v⟩ := e
    rw [List.mapM_cons] at h
    obtain ⟨r, mid, hhead, h⟩ := bind_eq_some h
    obtain ⟨name, after, hname, hhead⟩ := bind_eq_some hhead
    obtain ⟨content, last, hcontent, hhead⟩ := bind_eq_some hhead
    obtain ⟨rs, more, htail, h⟩ := bind_eq_some h
    cases hhead
    cases h
    exact .cons ⟨text?_of_key hname, depth, _, _, hcontent⟩ (ih htail)

end Document

namespace Anchors

variable {anchors : Anchors} {key : String} {n m : Node} {v : Value}

namespace Means

theorem scalar {tag : Option Octets} {style : ScalarStyle} {text : String}
    (h : anchors.Means n v) (hn : anchors.behind? n = some (.scalar tag style text)) :
    Scalar.value? tag style text = some v := by
  obtain ⟨depth, left, left', hvalue⟩ := h
  obtain ⟨part, hpart, -⟩ := value_eq_some hvalue
  obtain ⟨m, mid, hfollow, hm⟩ := bind_eq_some hpart
  cases Option.some.inj ((behind?_of_follow hfollow).symm.trans hn)
  obtain ⟨u, hu, heq⟩ := Option.map_eq_some_iff.mp hm
  cases heq
  exact hu

theorem mapping {tag : Option Octets} {entries : List (Node × Node)} (h : anchors.Means n v)
    (hn : anchors.behind? n = some (.mapping tag entries)) :
    ∃ read, v = .obj (Fields.ofEntries read) ∧ List.Forall₂ anchors.EntryMeans entries read := by
  obtain ⟨depth, left, left', hvalue⟩ := h
  obtain ⟨part, hpart, hread⟩ := value_eq_some hvalue
  obtain ⟨m, mid, hfollow, hm⟩ := bind_eq_some hpart
  cases Option.some.inj ((behind?_of_follow hfollow).symm.trans hn)
  cases part with
  | none => cases hm
  | some read =>
    obtain ⟨d, rfl⟩ := hread read rfl
    cases htag : isOwnTag tag with
    | true =>
      simp only [htag] at hm
      cases hm
    | false =>
      simp only [htag] at hm
      obtain ⟨rs, after, hentries, hrs⟩ := bind_eq_some hm
      cases hrs
      exact ⟨rs, rfl, entries_mean hentries⟩

end Means

/-- The first entry with a key is read as the first with that key. -/
theorem get?_of_find? {entries : List (Node × Node)} {read : List (String × Value)}
    (h : List.Forall₂ anchors.EntryMeans entries read)
    (hfind : (entries.find? fun e => anchors.text? e.1 == some key).map Prod.snd = some m) :
    ∃ w, Fields.get? key read = some w ∧ anchors.Means m w := by
  induction h with
  | nil => cases hfind
  | @cons e r entries read hhead htail ih =>
    obtain ⟨name, w⟩ := r
    obtain ⟨htext, hmeans⟩ := hhead
    rw [List.find?_cons, htext] at hfind
    by_cases hname : name = key
    · subst hname
      rw [beq_self_eq_true] at hfind
      cases hfind
      exact ⟨w, if_pos rfl, hmeans⟩
    · have hne : (some name == some key) = false := by simpa using hname
      rw [hne] at hfind
      rw [Fields.get?, if_neg hname]
      exact ih hfind

/-- What a mapping holds under a key is what the node there evaluates to. -/
theorem Means.entry (h : anchors.Means n v) (hentry : anchors.entry? key n = some m) :
    ∃ fs w, v = .obj fs ∧ Fields.get? key fs = some w ∧ anchors.Means m w := by
  unfold entry? at hentry
  split at hentry
  · next tag entries hn =>
    obtain ⟨read, rfl, hread⟩ := h.mapping hn
    obtain ⟨w, hw, hmeans⟩ := get?_of_find? (List.forall₂_reverse_iff.mpr hread) hentry
    exact ⟨_, w, rfl, (Fields.get?_ofEntries read key).trans hw, hmeans⟩
  · cases hentry

end Anchors

namespace Document

/-- The tree of the document that a text is, if it has one. -/
def tree? (s : String) : Option (Node × Anchors) := (tokens? s.toList).bind fun ts =>
  (Reader.document? ts).join

/-- The value of a text is what its tree evaluates to. -/
theorem means_of_read? {s : String} {n : Node} {anchors : Anchors} {v : Value}
    (h : read? s = some v) (htree : tree? s = some (n, anchors)) : anchors.Means n v := by
  obtain ⟨ts, hts, hjoin⟩ := Option.bind_eq_some_iff.mp htree
  have hdocument : Reader.document? ts = some (some (n, anchors)) :=
    Option.join_eq_some_iff.mp hjoin
  simp only [read?, hts, hdocument, Option.bind_eq_bind, Option.bind_some] at h
  obtain ⟨⟨w, left⟩, hvalue, heq⟩ := Option.bind_eq_some_iff.mp h
  cases heq
  exact ⟨_, _, left, hvalue⟩

end Document

end Runbook.Yaml
