import BuildGraph.Context
import BuildGraph.Coverage.Pass
import BuildGraph.Matrix

/-!
# The workspace

The projects of a workspace are made from its settings, and the coverage pass runs on each of them. A
project on which the pass fails does not concern the others.
-/

namespace BuildGraph

/-- Why the projects of a workspace cannot be made. -/
inductive BuildFault where
  /-- The project at a path names a toolchain that does not exist. -/
  | unknownToolchain (path name : String)
  | project (why : ProjectFault)
deriving DecidableEq, Repr

/-- The fault in words. -/
def BuildFault.message : BuildFault → String
  | .unknownToolchain path name =>
    "project " ++ path ++ " uses unknown toolchain \"" ++ name ++ "\" (known: "
      ++ Toolchain.knownNames ++ ")"
  | .project why => why.message

namespace Workspace

/-- The build directory of a project that names none: below a directory for each part of its path. -/
def defaultBuildDir (root path : String) : String :=
  let segments := (Text.fields ':' path.toList).filter (!·.isEmpty)
  Path.join (segments.foldl (fun dir segment => Path.join dir (.ofList segment)) root) "build"

/-- The cell of the matrix that a project path ends in. Only a secondary value that starts with a digit
counts. -/
def matrixCell? (path : String) (settings : Settings.Matrix) : Option MatrixCell :=
  match MatrixCell.ofName path settings.defaultPrimary with
  | .error _ => none
  | .ok cell => if MatrixCell.startsWithDigit cell.secondary.toList then some cell else none

/-- A project is taken for a matrix project only if its whole path spells a cell, and the secondary value
looks like a version. -/
theorem ofName_of_matrixCell? {path : String} {settings : Settings.Matrix} {cell : MatrixCell}
    (h : matrixCell? path settings = some cell) :
    MatrixCell.ofName path settings.defaultPrimary = .ok cell ∧
      MatrixCell.startsWithDigit cell.secondary.toList := by
  unfold matrixCell? at h
  split at h
  · cases h
  · rename_i found hfound
    split at h
    · rename_i hdigit
      obtain rfl := Option.some.inj h
      exact ⟨hfound, hdigit⟩
    · cases h

/-- The build directory of a project. -/
def buildDir (c : Context) (spec : Settings.Project) : String :=
  let dir :=
    match spec.buildDir with
    | some dir => Path.join c.root dir
    | none => defaultBuildDir c.root spec.path
  match matrixCell? spec.path c.settings.matrix with
  | some cell => cell.relocate dir
  | none => dir

/-- Apply toolchains by their names. -/
def applyToolchains : List String → Project → Except BuildFault Project
  | [], p => .ok p
  | name :: names, p =>
    match Toolchain.ofName? name with
    | none => .error (.unknownToolchain p.path name)
    | some t => applyToolchains names (p.apply (.toolchain t))

/-- Declare suites. -/
def addSuites : List Settings.Suite → Project → Except ProjectFault Project
  | [], p => .ok p
  | suite :: suites, p =>
    match p.addSuite suite.name (suite.executionData.map (Path.join p.buildDir ·)) suite.sourceSet with
    | .error fault => .error fault
    | .ok p => addSuites suites p

/-- Make a project. -/
def buildProject (c : Context) (spec : Settings.Project) : Except BuildFault Project := do
  let p := { Project.fresh spec.path (buildDir c spec) with uberJar := spec.uberJar }
  let p := if (matrixCell? spec.path c.settings.matrix).isSome then p.apply .matrixBuild else p
  let p ← applyToolchains spec.toolchains p
  (addSuites spec.suites p).mapError .project

/-- Make projects, or find the first one that cannot be made. -/
def buildEach (c : Context) : List Settings.Project → Except BuildFault (List Project)
  | [] => .ok []
  | spec :: specs =>
    match buildProject c spec with
    | .error fault => .error fault
    | .ok p => (buildEach c specs).map (p :: ·)

/-- Make all projects of the settings. -/
def buildProjects (c : Context) : Except BuildFault (List Project) := buildEach c c.settings.projects

/-- What the coverage pass made of a workspace. -/
structure Report where
  /-- The tasks created for each project with coverage. -/
  configured : SortedMap String (List String) := .empty
  /-- The projects without coverage, in order. -/
  skipped : List String := []
  /-- The projects on which the pass failed, in order. -/
  failed : List (String × CoverageFault) := []
deriving DecidableEq

/-- Whether the pass failed on no project. -/
def Report.isSuccess (r : Report) : Bool := r.failed.isEmpty

/-- Take the outcome for a project into account. -/
def Report.add (r : Report) (path : String) : Except CoverageFault CoverageOutcome → Report
  | .ok (.configured created) => { r with configured := r.configured.insert path created }
  | .ok .skipped => { r with skipped := r.skipped ++ [path] }
  | .error fault => { r with failed := r.failed ++ [(path, fault)] }

/-- Run the coverage pass on each project by itself. -/
def configure (pass : CoveragePass) (projects : List Project) : List Project × Report :=
  (projects.map fun p => (pass.configure p).1,
    projects.foldl (fun r p => r.add p.path (pass.configure p).2) {})

end Workspace

end BuildGraph
