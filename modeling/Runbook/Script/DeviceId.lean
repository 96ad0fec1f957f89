/-
Device ids that are written as numbers.

In a text that mentions android, the digits after `deviceId:` and any blanks
are put between quotes, so that they are read as text. The last of them is
named in a warning.
-/
import Runbook.Error
import Runbook.Text.Classes

namespace Runbook.DeviceId

/-- The key of a device id, with its colon. -/
def label : List Char := "deviceId:".toList

/-- The digits of a device id at the start of the characters, and what follows them. -/
def id? (cs : List Char) : Option (List Char × List Char) :=
  if label.isPrefixOf cs then
    let content := Text.trimStart (cs.drop label.length)
    match content.takeWhile Text.isDecimalDigit with
    | [] => none
    | digits => some (digits, content.dropWhile Text.isDecimalDigit)
  else none

theorem length_of_id? {cs digits rest : List Char} (h : id? cs = some (digits, rest)) :
    rest.length < cs.length := by
  unfold id? at h
  split at h
  · rename_i hlabel
    have hlen : label.length ≤ cs.length := (List.isPrefixOf_iff_prefix.mp hlabel).length_le
    have hpos : 0 < label.length := by decide
    simp only at h
    split at h
    · cases h
    · simp only [Option.some.injEq, Prod.mk.injEq] at h
      obtain ⟨-, rfl⟩ := h
      have h1 := (List.dropWhile_sublist (l := Text.trimStart (cs.drop label.length))
        Text.isDecimalDigit).length_le
      have h2 := (List.dropWhile_sublist (l := cs.drop label.length) Text.isBlank).length_le
      simp only [Text.trimStart] at h1 ⊢
      rw [List.length_drop] at h2
      omega
  · cases h

/-- A part of a text. -/
inductive Segment where
  | literal (c : Char)
  /-- A key with the digits of its id, whatever blanks were between them. -/
  | id (digits : List Char)

/-- The bare device ids of a text and the characters between them. -/
def segments : List Char → List Segment
  | [] => []
  | c :: cs =>
    match h : id? (c :: cs) with
    | some (digits, rest) =>
      have : rest.length < (c :: cs).length := length_of_id? h
      .id digits :: segments rest
    | none => .literal c :: segments cs
termination_by cs => cs.length
decreasing_by
  · assumption
  · exact Nat.lt_succ_self _

namespace Segment

/-- How a segment is written with its id quoted. -/
def quoted : Segment → List Char
  | .literal c => [c]
  | .id digits => label ++ [' ', '\''] ++ digits ++ ['\'']

def digits? : Segment → Option (List Char)
  | .literal _ => none
  | .id digits => some digits

end Segment

/-- Whether a text occurs in another. -/
def occurs (part : List Char) : List Char → Bool
  | [] => part.isEmpty
  | c :: cs => part.isPrefixOf (c :: cs) || occurs part cs

/-- The text with its bare device ids quoted, if it mentions android. -/
def quote (text : String) : Logged String :=
  let cs := text.toList
  let parts := segments cs
  match occurs "android".toList cs, (parts.filterMap Segment.digits?).getLast? with
  | true, some last =>
    ⟨[.bareDeviceId (String.ofList last)], String.ofList (parts.flatMap Segment.quoted)⟩
  | _, _ => Logged.pure text

end Runbook.DeviceId
