import BuildGraph.CommandLine.Run

/-!
# The program

Reads the files that the call may need, runs it on them, prints what it leaves behind and exits.
-/

namespace BuildGraph

/-- The reason for a failure that the system reports. -/
def AccessFailure.ofSystem : IO.Error → AccessFailure
  | .noFileOrDirectory _ _ _ => .notFound
  | .inappropriateType (some _) 20 _ => .notDirectory
  | .inappropriateType none 20 _ => .notDirectory
  | .inappropriateType _ _ _ => .isDirectory
  | .permissionDenied _ code details => .refused details code.toNat
  | .invalidArgument _ 36 _ => .nameTooLong
  | error => .refused (toString error) 0

/-- What a path names in the file system. -/
def Entry.read (path : String) : IO Entry := do
  try
    return .file (← IO.FS.readBinFile path)
  catch error =>
    match AccessFailure.ofSystem error with
    | .isDirectory => return .directory
    | why => return .absent why

/-- The view of the file system that knows the given paths. -/
def Files.snapshot (paths : List String) : IO Files := do
  let entries ← paths.mapM fun path => return (path, ← Entry.read path)
  return fun path => (entries.lookup path).getD (.absent .notFound)

end BuildGraph

open BuildGraph in
/-- Run the program in the current directory. -/
def main (args : List String) : IO UInt32 := do
  let root := (← IO.currentDir).toString
  let settings ← Files.snapshot [Context.settingsPath root]
  let files ← Files.snapshot (Context.inputPaths settings root)
  let result := CommandLine.run files root args
  (← IO.getStdout).putStr result.out
  (← IO.getStderr).putStr result.err
  return result.exit.toUInt32
