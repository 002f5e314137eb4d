import BuildGraph.SortedMap

/-!
# Workspace settings

The settings of a workspace and their default values. A workspace may list its projects; then no
project path occurs twice, and within a project no suite name does.
-/

namespace BuildGraph

namespace Settings

/-- Where sibling modules come from. -/
structure Topology where
  /-- Whether sibling modules are fetched as published artifacts. -/
  splitBuild : Bool := false
  /-- The property file whose keys are the artifacts of group B. -/
  projectsManifest : String := "gradle/projects.iceberg.properties"
  groupA : String := "org.projectnessie.nessie"
  groupB : String := "org.projectnessie.nessie-integrations"
deriving DecidableEq

/-- Which projects get coverage tasks, and where their reports go. -/
structure Coverage where
  /-- Patterns of project paths that take a project in. -/
  includes : List String := [":nessie-*", ":iceberg-views"]
  /-- Patterns of project paths that take a project out again. -/
  excludes : List String := [":nessie-bom", ":nessie-compatibility-tests"]
  /-- The directory of reports below each build directory. -/
  reportsDir : String := "reports/jacoco"
  /-- The catalog key of the coverage agent's version. -/
  toolVersionKey : String := "jacoco"
deriving DecidableEq

/-- Names and defaults of the version matrix. -/
structure Matrix where
  /-- The primary value of a name that has none. -/
  defaultPrimary : String := "3.2"
  /-- The start of the catalog keys of libraries for a pair of values. -/
  primaryLibrary : String := "spark-sql"
  /-- The start of the catalog keys of libraries for a secondary value. -/
  secondaryLibrary : String := "scala-library"
  /-- The secondary values of each primary value; the first one is its default. -/
  secondaryAxis : SortedMap String (List String) := .empty
deriving DecidableEq

/-- How the published client is found outside split builds. -/
structure Client where
  artifact : String := "nessie-client"
  /-- The catalog key of the client's version. -/
  catalogKey : String := "nessieClientVersion"
  /-- The first version that was published in group A. -/
  minCurrentVersion : String := "0.50.1"
  /-- The group of earlier versions. -/
  legacyGroup : String := "org.projectnessie"
deriving DecidableEq

/-- A test suite of a project. -/
structure Suite where
  name : String
  /-- The execution data below the build directory; absent if the tests record none. -/
  executionData : Option String := none
  /-- The source set of the tests; by default it has the suite's name. -/
  sourceSet : Option String := none
deriving DecidableEq

/-- A project of the workspace. -/
structure Project where
  path : String
  /-- The build directory below the workspace root. -/
  buildDir : Option String := none
  /-- The names of the toolchains the project is assembled with. -/
  toolchains : List String := []
  /-- Whether one archive with everything in it is wanted. -/
  uberJar : Bool := false
  suites : List Suite := []
deriving DecidableEq

end Settings

/-- The settings of a workspace. -/
structure Settings where
  /-- The version catalog below the workspace root. -/
  catalog : String := "gradle/libs.versions.toml"
  topology : Settings.Topology := {}
  coverage : Settings.Coverage := {}
  matrix : Settings.Matrix := {}
  client : Settings.Client := {}
  projects : List Settings.Project := []
deriving DecidableEq

namespace Settings

/-- A name that settings use twice. -/
inductive Duplicate where
  | project (path : String)
  | suite (projectPath name : String)
deriving DecidableEq, Repr

/-- The duplicate in words. -/
def Duplicate.message : Duplicate → String
  | .project path => "project " ++ path ++ " is declared more than once"
  | .suite path name => "suite " ++ name ++ " is declared more than once in project " ++ path

/-- The first name that occurs in `seen` or earlier in the list. -/
def firstRepeated (seen : List String) : List String → Option String
  | [] => none
  | name :: names => if name ∈ seen then some name else firstRepeated (name :: seen) names

/-- The first duplicate of a list of projects that comes after projects with the paths `seen`. A
repeated path comes before the repetitions among the project's suites. -/
def firstDuplicate (seen : List String) : List Project → Option Duplicate
  | [] => none
  | project :: projects =>
    if project.path ∈ seen then some (.project project.path)
    else
      match firstRepeated [] (project.suites.map (·.name)) with
      | some suite => some (.suite project.path suite)
      | none => firstDuplicate (project.path :: seen) projects

/-- The first duplicate of the settings, in the order in which they list projects and suites. -/
def duplicate? (s : Settings) : Option Duplicate := firstDuplicate [] s.projects

end Settings

end BuildGraph
