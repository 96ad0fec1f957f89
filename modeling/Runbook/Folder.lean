/-
Folders: which files can be written in them.

A folder is known by the plain files it held at first; directories on the
way to a new file are made as they are needed. A file cannot be written
where a directory is, nor below another file, nor under a name or at the end
of a path that is too long.
-/
import Runbook.Path

namespace Runbook

/-- A place seen from a folder: some levels up, then down along names, the
innermost name first. -/
structure Place where
  levelsUp : Nat
  names : List (List Char)
deriving DecidableEq

namespace Place

/-- The folder itself. -/
def here : Place := ⟨0, []⟩

/-- The place one part of a path further. -/
def next (p : Place) (part : List Char) : Place :=
  if part == Path.parent then
    match p.names with
    | [] => { p with levelsUp := p.levelsUp + 1 }
    | _ :: outer => { p with names := outer }
  else { p with names := part :: p.names }

/-- The places passed on the way along some parts, the last one included. -/
def along (p : Place) : List (List Char) → List Place
  | [] => []
  | part :: rest => p.next part :: along (p.next part) rest

end Place

/-- A folder with plain files in it. -/
structure Folder where
  /-- How many bytes lead from the root into the folder, the slash at the end included. -/
  reach : Nat
  files : List Place

namespace Folder

def empty (reach : Nat) : Folder := ⟨reach, []⟩

/-- A folder that holds one file. -/
def holding (reach : Nat) (path : String) : Folder :=
  ⟨reach, (Place.here.along (Path.steps path)).getLast?.toList⟩

/-- The most bytes a name may have. -/
def nameLimit : Nat := 255

/-- The most bytes a path may have, from the root on and as it is written. -/
def pathLimit : Nat := 4095

/-- Whether a file system takes a name. -/
def isValidName (name : List Char) : Bool :=
  decide ((String.ofList name).utf8ByteSize ≤ nameLimit) && !name.contains '\x00'

/-- Whether the last part of a path names a file. -/
def endsInName (path : String) : Bool :=
  match (Path.parts path).getLast? with
  | some part => !Path.isIdle part && part != Path.parent
  | none => false

/-- Whether a file can be written at a path that starts in the folder. -/
def accepts (f : Folder) (path : String) : Bool :=
  let steps := Path.steps path
  let places := Place.here.along steps
  endsInName path && steps.all isValidName &&
  decide (f.reach + path.utf8ByteSize ≤ pathLimit) &&
  match places.getLast? with
  | none => false
  | some target =>
    places.dropLast.all (fun p => p != target && !f.files.contains p) &&
    f.files.all fun p => !(target.names.isSuffixOf p.names && p != target)

end Folder

end Runbook
