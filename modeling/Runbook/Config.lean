/-
Settings of a player, and where the results of a run go.

Results go to the path a script asks for, or else to a new file that is
named after the script and stamped with the time.
-/
import Runbook.Path
import Runbook.Script
import Runbook.Script.Placeholder

namespace Runbook

structure Config where
  /-- Where generated files go. -/
  runDir : String
  /-- Whether results are written to a file after every change. -/
  persist : Bool
  /-- Where relative paths of scripts start. -/
  cwd : String

namespace Config

/-- The variable that names another folder for generated files. -/
def runDirVariable : String := "SCRIPT_PLAYER_RUN_DIR"

/-- The settings where nothing is said. A variable of blanks says nothing. -/
def standard (env : Environment) (cwd : String) : Config where
  runDir := match env runDirVariable with
    | some dir => if dir.toList.all Text.isBlank then "script_player_run" else dir
    | none => "script_player_run"
  persist := true
  cwd := cwd

/-- Settings read from a value; members that are missing are as in `base`. -/
def record (base : Config) : Decode.Record Config :=
  Config.mk <$> .withDefault "run_dir" Decode.path base.runDir
    <*> .withDefault "persist_results" Decode.flag base.persist
    <*> .withDefault "cwd" Decode.path base.cwd

def decode (base : Config) : Value → Decoded Config := (record base).decode "PlayerConfig"

def toValue (c : Config) : Value := .obj [
  ("run_dir", .str c.runDir), ("persist_results", .bool c.persist), ("cwd", .str c.cwd)]

end Config

/-- Where the results of a run go. -/
inductive Destination where
  /-- A path the script asks for. -/
  | given (path : String)
  /-- A file in a folder, named by a stem and the time of the run. -/
  | stamped (folder stem : String)

namespace Destination

/-- The name of a script without its ending. -/
def stem (script : Option String) : String :=
  match script.bind Path.fileName? with
  | none => "script"
  | some name =>
    ((Path.withoutEnding? ".yaml" name).or (Path.withoutEnding? ".yml" name)).getD name

/-- The destination of a run, from the path its script asks for, if any, and
the path of the script itself, if known. -/
def choose (config : Config) (output script : Option String) : Destination :=
  match output with
  | some path =>
    if path.isEmpty then .stamped (Path.join config.runDir "output") (stem script)
    else .given (Path.join config.cwd path)
  | none => .stamped (Path.join config.runDir "output") (stem script)

/-- The name of a stamped file. -/
def stampedName (stem stamp : String) : String := stem ++ "-" ++ stamp ++ ".json"

/-- The path of the destination, given the text of the time. -/
def path (stamp : String) : Destination → String
  | .given p => p
  | .stamped folder stem => Path.join folder (stampedName stem stamp)

end Destination

end Runbook
