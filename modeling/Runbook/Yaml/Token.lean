/-
The tokens of a YAML text.

The start and the end of block collections are tokens too: they are read off
the indentation.
-/

namespace Runbook.Yaml

/-- How a scalar is written. Only plain scalars can be anything but text. -/
inductive ScalarStyle where
  | plain
  | quoted
deriving DecidableEq

/-- The octets of a tag. Some of them may be given by number, so they need not
be the octets of any characters. -/
abbrev Octets := List UInt8

namespace Octets

/-- The octets of a text. -/
def ofText (s : String) : Octets := s.toUTF8.toList

/-- Whether octets are those of a text. -/
def areText (os : Octets) : Bool := (String.fromUTF8? ⟨os.toArray⟩).isSome

/-- The octets before the first zero, which ends a tag. -/
def beforeZero (os : Octets) : Octets := os.takeWhile (· != 0)

end Octets

inductive Token where
  | version (major minor : Nat)
  | tagHandle (handle : String) (replacement : Octets)
  | documentStart
  | documentEnd
  | blockSequenceStart
  | blockMappingStart
  | blockEnd
  | flowSequenceStart
  | flowSequenceEnd
  | flowMappingStart
  | flowMappingEnd
  | blockEntry
  | flowEntry
  | key
  | value
  | alias (name : String)
  | anchor (name : String)
  | tag (handle : String) (suffix : Octets)
  | scalar (style : ScalarStyle) (text : String)
deriving DecidableEq

end Runbook.Yaml
