import BuildGraph.Files
import BuildGraph.Settings.Encoding
import BuildGraph.Toml

/-!
# The settings file

Settings are read from the file `tessera.toml` of the workspace.
-/

namespace BuildGraph.Settings

/-- The name of the settings file below the workspace root. -/
def fileName : String := "tessera.toml"

/-- Why a settings file gives no settings. -/
inductive Fault where
  | read (path : String) (why : AccessFailure)
  | parse (path : String) (why : Toml.Fault)
  | duplicate (what : Duplicate)
deriving DecidableEq, Repr

/-- The fault in words. -/
def Fault.message : Fault → String
  | .read path why => "cannot read " ++ path ++ ": " ++ why.message
  | .parse path why => "invalid " ++ fileName ++ " at " ++ path ++ ": " ++ why.message
  | .duplicate what => what.message

/-- Settings from the content of a settings file, with or without duplicates. -/
def ofText (content : String) : Except Toml.Fault Settings :=
  match Toml.parse content with
  | .error fault => .error fault
  | .ok d =>
    match decode .ignored d with
    | none => .error .shape
    | some settings => .ok settings

/-- Read the settings file at `path`. -/
def load (files : Files) (path : String) : Except Fault Settings :=
  match files.readText path with
  | .error why => .error (.read path why)
  | .ok content =>
    match ofText content with
    | .error why => .error (.parse path why)
    | .ok settings =>
      match settings.duplicate? with
      | some what => .error (.duplicate what)
      | none => .ok settings

end BuildGraph.Settings
