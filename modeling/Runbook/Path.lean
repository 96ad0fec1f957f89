/-
Paths as texts: names between slashes.

Joining keeps both texts as they are written, so `.`, `..` and repeated
slashes stay. Only where a path is taken apart do empty names and single
dots drop out.
-/
namespace Runbook.Path

/-- Whether a path starts from the root. -/
def isAbsolute (path : String) : Bool := path.toList.head? == some '/'

/-- One path after another. An absolute path replaces what is before it, and
a slash is put between the two where there is none. -/
def join (base path : String) : String :=
  if isAbsolute path then path
  else if base.isEmpty || base.toList.getLast? == some '/' then base ++ path
  else base ++ "/" ++ path

/-- What stands between the slashes, empty texts included. -/
def parts (path : String) : List (List Char) := path.toList.splitOn '/'

/-- Whether a part leads nowhere. -/
def isIdle (part : List Char) : Bool := part == [] || part == ['.']

/-- The part that leads one level up. -/
def parent : List Char := ['.', '.']

/-- The parts that lead somewhere. -/
def steps (path : String) : List (List Char) := (parts path).filter fun part => !isIdle part

/-- The last name of a path, unless it is the way up. -/
def fileName? (path : String) : Option String :=
  match (steps path).getLast? with
  | none => none
  | some name => if name == parent then none else some (String.ofList name)

/-- A text without an ending, if it has that ending. -/
def withoutEnding? (ending text : String) : Option String :=
  (ending.toList.isSuffixOf? text.toList).map String.ofList

/-- A path without the idle parts at its start and its end. An absolute path
is left as it is. -/
def trimmed (path : String) : String :=
  if isAbsolute path then path
  else
    let front := (parts path).dropWhile isIdle
    let middle := (front.reverse.dropWhile isIdle).reverse
    String.ofList (['/'].intercalate middle)

end Runbook.Path
