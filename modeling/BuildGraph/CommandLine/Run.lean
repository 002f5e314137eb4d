import BuildGraph.CommandLine.Arguments
import BuildGraph.Document.Json
import BuildGraph.Listing
import BuildGraph.Resolution
import BuildGraph.Workspace

/-!
# Commands

What a call of the program prints and how it ends. Results go to the output, progress and faults to the
error output.
-/

namespace BuildGraph.CommandLine

/-- What a call leaves behind. -/
structure Result where
  /-- Zero for success, one for a fault, two for an improper call. -/
  exit : Nat := 0
  out : String := ""
  err : String := ""
deriving DecidableEq, Repr

/-- Why a command fails. -/
inductive Fault where
  | noSettings
  | load (why : LoadFault)
  | manifest (why : ManifestFault)
  | build (why : BuildFault)
  | pattern (why : InvalidPattern)
  | version (why : Catalog.LookupFault)
  | client (why : ClientFault)
  | matrix (why : MatrixFault)
  | noCell
  /-- The coverage pass failed on so many projects. -/
  | coverage (failed : Nat)
deriving DecidableEq, Repr

/-- The fault in words. -/
def Fault.message : Fault → String
  | .noSettings => "no " ++ Settings.fileName ++ " found in current directory"
  | .load why => why.message
  | .manifest why => why.message
  | .build why => why.message
  | .pattern why => why.message
  | .version why => why.message
  | .client why => why.message
  | .matrix why => why.message
  | .noCell => "expected a target name or --primary"
  | .coverage failed => "coverage configuration failed for " ++ toString failed ++ " project(s)"

/-- A text with the end of its last line. -/
def line (s : String) : String := s ++ "\n"

/-- Several lines. -/
def lines (texts : List String) : String := String.join (texts.map line)

/-- A result that ends with a fault. -/
def Result.fail (r : Result) (fault : Fault) : Result :=
  { r with exit := 1, err := r.err ++ line ("error: " ++ fault.message) }

/-- The result of a command that prints only if it succeeds. -/
def ofExcept : Except Fault Result → Result
  | .ok r => r
  | .error fault => Result.fail {} fault

/-- Load the context of the workspace in the current directory. The switch can only force a split
build. -/
def loadContext (files : Files) (root : String) (splitBuild : Bool) : Except Fault Context :=
  if files.has (Context.settingsPath root) then
    (Context.load files root (if splitBuild then some true else none)).mapError .load
  else .error .noSettings

/-- The projects of a workspace and the coverage pass for them. -/
def prepare (c : Context) : Except Fault (List Project × CoveragePass) := do
  let projects ← (Workspace.buildProjects c).mapError .build
  let pass ← (CoveragePass.ofSettings c.settings.coverage c.catalog).mapError .pattern
  return (projects, pass)

/-- How the pass went on projects that did not fail. -/
def progress (r : Workspace.Report) : String :=
  lines (r.configured.entries.map fun (path, created) =>
    "    Configured " ++ path ++ " (" ++ toString created.length ++ " new tasks)")
  ++ lines (r.skipped.map ("       Skipped " ++ ·))

/-- The tasks that the pass created. -/
def createdTasks (r : Workspace.Report) : String :=
  lines (r.configured.entries.flatMap fun (path, created) => created.map (path ++ ":" ++ ·))

/-- The projects that the pass failed on. -/
def failures (r : Workspace.Report) : String :=
  lines (r.failed.map fun (path, fault) => "        Failed " ++ path ++ ": " ++ fault.message)

/-- Print how the coverage pass went. -/
def showCoverage (json : Bool) (projects : List Project) (r : Workspace.Report) : Result :=
  let result : Result :=
    if json then
      { out := line (Document.Json.render (.array (projects.map Project.encode)))
        err := failures r }
    else { out := createdTasks r, err := progress r ++ failures r }
  if r.isSuccess then result else result.fail (.coverage r.failed.length)

/-- Print the versions of a cell. -/
def showCell (r : ResolvedCell) : Result :=
  { out := lines [
      "target: " ++ r.cell.display,
      "primary-version: " ++ r.primaryVersion,
      "secondary-version: " ++ r.secondaryVersion,
      "output-key: " ++ r.cell.outputKey] }

/-- The cell that a name ends in, or the one of a primary value. -/
def resolveCell (c : Context) : Option String → Option String → Except Fault ResolvedCell
  | some name, _ => (ResolvedCell.ofName name c.catalog c.settings.matrix).mapError .matrix
  | none, some primary => do
    let cell ← (MatrixCell.withDefaultSecondary primary c.settings.matrix).mapError .matrix
    (cell.resolve c.catalog c.settings.matrix).mapError .matrix
  | none, none => .error .noCell

/-- Whether the settings want the server application in one archive. -/
def serverUberJar (settings : Settings) : Bool :=
  (settings.projects.find? (·.path = ":" ++ serverModule)).any (·.uberJar)

/-- The context with the manifest, which a workspace build reads only if it is there. -/
def checkManifest (files : Files) (c : Context) : Except Fault Context :=
  if c.topology = .inWorkspace ∧ files.has c.manifestPath then
    (c.readManifest files).mapError .manifest
  else .ok c

/-- Run a command in the workspace at `root`. -/
def runCommand (files : Files) (root : String) : Command → Result
  | .coverage json splitBuild => ofExcept do
    let c ← loadContext files root splitBuild
    let (projects, pass) ← prepare c
    let (projects, report) := Workspace.configure pass projects
    return showCoverage json projects report
  | .resolve name subTarget splitBuild => ofExcept do
    let c ← loadContext files root splitBuild
    let resolved := ModuleReference.resolve ⟨name, subTarget⟩ c.topology c.registry
    return { out := line resolved.display }
  | .serverRunner splitBuild => ofExcept do
    let c ← loadContext files root splitBuild
    let package := Toolchain.quarkus.packageType (serverUberJar c.settings) c.topology
    return { out := lines [
      (resolveServerRunner c.topology c.registry).display,
      "package-type: " ++ package.name] }
  | .client splitBuild => ofExcept do
    let c ← loadContext files root splitBuild
    let resolved ←
      (resolveClient c.topology c.registry c.catalog c.settings.client).mapError .client
    return { out := line resolved.display }
  | .matrix name primary => ofExcept do
    let c ← loadContext files root false
    return showCell (← resolveCell c name primary)
  | .check => ofExcept do
    let c ← loadContext files root false
    let c ← checkManifest files c
    let (projects, pass) ← prepare c
    let version ← (c.catalog.version c.settings.coverage.toolVersionKey).mapError .version
    let eligible := projects.countP fun p => pass.policy.isEligible p.path
    return { err := lines [
      "    Checked " ++ toString projects.length ++ " projects (" ++ toString eligible
        ++ " with coverage, agent " ++ version ++ ")",
      "    Manifest lists " ++ toString c.registry.members.size ++ " split-build modules"] }

/-- How the program is called. -/
def usage : String := lines [
  "Coverage task synthesis and module resolution for multi-module builds",
  "",
  "Usage: tessera <COMMAND>",
  "",
  "Commands:",
  "  coverage       Add per-suite coverage report and verification tasks",
  "                   [--json] [--split-build]",
  "  resolve        Resolve a module name to a project or a published coordinate",
  "                   <MODULE> [--sub-target <SUB_TARGET>] [--split-build]",
  "  server-runner  Resolve the runnable server application and its packaging",
  "                   [--split-build]",
  "  client         Resolve the published client library",
  "                   [--split-build]",
  "  matrix         Resolve the engine and runtime versions of a matrix target",
  "                   [NAME] | --primary <PRIMARY>",
  "  check          Validate tessera.toml, the version catalog, and the module manifest",
  "  help           Print this message or the help of the given subcommand(s)",
  "",
  "Options:",
  "  -h, --help     Print help",
  "  -V, --version  Print version"]

/-- Run the program with arguments in the directory `root`. -/
def run (files : Files) (root : String) (args : List String) : Result :=
  match parse args with
  | none => { exit := 2, err := usage }
  | some .help => { out := usage }
  | some .version => { out := line "tessera 0.1.0" }
  | some (.run command) => runCommand files root command

end BuildGraph.CommandLine
