import BuildGraph.Capability
import BuildGraph.TaskGraph

/-!
# Projects

A project has capabilities, test suites, source sets and tasks. It starts with a compile task, a test
task and the default suite, and grows by the operations below. An operation that may fail checks
everything before it changes anything, so a failure leaves the project as it was.
-/

namespace BuildGraph

/-- The suite that every project has. -/
def defaultSuite : String := "default"

/-- The test task of the default suite, and the name of its source set. -/
def defaultTestTask : String := "test"

/-- The source set whose coverage is measured. -/
def mainSourceSet : String := "main"

/-- The task after which all classes are compiled. -/
def classesTask : String := "classes"

/-- The group of coverage tasks. -/
def verificationGroup : String := "verification"

/-- The report task of the default suite. -/
def defaultReportTask : String := "coverage-report"

/-- The verification task of the default suite. -/
def defaultVerificationTask : String := "coverage-verification"

/-- A test suite of a project. -/
structure TestSuite where
  name : String
  /-- Absent if the suite's test task records no data. -/
  executionData : Option ExecutionData
  /-- The source set of the tests. -/
  sourceSet : String
deriving DecidableEq, Repr

/-- The coverage settings of a project whose coverage is enabled. -/
structure CoverageExtension where
  /-- The version of the coverage agent, once it is known. -/
  toolVersion : Option String
  reportsDir : String
deriving DecidableEq, Repr

/-- A unit of the workspace that is built by itself. -/
structure Project where
  path : String
  buildDir : String
  /-- Whether one archive with everything in it is wanted. -/
  uberJar : Bool := false
  capabilities : SortedSet Capability := .empty
  suites : SortedMap String TestSuite
  sourceSets : SortedSet String
  tasks : TaskGraph
  coverage : Option CoverageExtension := none
  /-- The convention that report tasks registered from now on follow. -/
  convention : Option ReportConvention := none
deriving DecidableEq

/-- Why an operation on a project fails. -/
inductive ProjectFault where
  | duplicateTask (project name : String)
  | missingTask (project name : String)
  | missingSourceSet (project name : String)
  | unknownSuite (project suite : String)
  | incompleteSuite (project suite : String)
deriving DecidableEq, Repr

/-- The fault in words. -/
def ProjectFault.message : ProjectFault → String
  | .duplicateTask project name => "task " ++ name ++ " already exists in project " ++ project
  | .missingTask project name => "task " ++ name ++ " not found in project " ++ project
  | .missingSourceSet project name => "source set " ++ name ++ " not found in project " ++ project
  | .unknownSuite project suite => "test suite " ++ suite ++ " not found in project " ++ project
  | .incompleteSuite project suite =>
    "test suite " ++ suite ++ " in project " ++ project ++ " has no execution data bound"

namespace Project

/-- The data of the default suite of a project that builds into `buildDir`. -/
def defaultExecutionData (buildDir : String) : ExecutionData where
  task := defaultTestTask
  file := Path.join (Path.join buildDir "jacoco") (defaultTestTask ++ ".exec")

/-- A project with nothing but what every project has. -/
def fresh (path buildDir : String) : Project where
  path
  buildDir
  suites := SortedMap.empty.insert defaultSuite {
    name := defaultSuite
    executionData := some (defaultExecutionData buildDir)
    sourceSet := defaultTestTask }
  sourceSets := .ofList [mainSourceSet, defaultTestTask]
  tasks :=
    (TaskGraph.empty.ensure { name := classesTask, action := .compile }).ensure
      { name := defaultTestTask, action := .test { suite := defaultSuite } }

/-- The task called `name`. -/
def task? (p : Project) (name : String) : Option Task := p.tasks.get? name

/-- Whether the project has a capability. -/
def has (p : Project) (c : Capability) : Bool := p.capabilities.contains c

/-- The toolchains of the project. -/
def toolchains (p : Project) : List Toolchain :=
  p.capabilities.elements.filterMap fun
    | .toolchain t => some t
    | _ => none

/-- The settings of all test runs, that of the default suite included. -/
def testExecutions (p : Project) : List TestExecution :=
  p.tasks.tasks.filterMap fun t =>
    match t.action with
    | .test e => some e
    | _ => none

/-- The coverage tasks of suites other than the default one. -/
def derivedTasks (p : Project) : List Task :=
  p.tasks.tasks.filter fun t => t.coverageInputs?.any (·.suite ≠ defaultSuite)

/-- The names of all suites but the default one, in order. -/
def derivedSuites (p : Project) : List String :=
  (p.suites.values.map (·.name)).filter (· ≠ defaultSuite)

/-- Register a task under a free name. A report task follows the convention. -/
def register (p : Project) (t : Task) : Except ProjectFault Project :=
  let t :=
    match p.convention with
    | some convention => t.followConvention convention
    | none => t
  match p.tasks.insert t with
  | .ok tasks => .ok { p with tasks }
  | .error rejected => .error (.duplicateTask p.path rejected.name)

/-- Declare a suite and register the test task of its name. -/
def addSuite (p : Project) (name : String) (file : Option String) (sourceSet : Option String) :
    Except ProjectFault Project :=
  if p.suites.contains name then .error (.duplicateTask p.path name)
  else
    match p.register { name, action := .test { suite := name } } with
    | .error fault => .error fault
    | .ok p =>
      let sourceSet := sourceSet.getD name
      .ok { p with
        sourceSets := p.sourceSets.add sourceSet
        suites := p.suites.insert name {
          name
          executionData := file.map fun file => ⟨name, file⟩
          sourceSet } }

/-- Add a capability. A toolchain brings the task that compiles its generated sources, unless a task
has that name. -/
def apply (p : Project) (c : Capability) : Project :=
  let tasks :=
    match c with
    | .toolchain t => p.tasks.ensure { name := t.generatedSourcesTask, action := .compile }
    | _ => p.tasks
  { p with tasks, capabilities := p.capabilities.add c }

/-- Whether `name` is the coverage task of a kind for a suite. It is a fault if another task has the
name. -/
def hasCoverageTask (p : Project) (name : String) (kind : CoverageKind) (suite : String) :
    Except ProjectFault Bool :=
  match p.task? name with
  | none => .ok false
  | some t => if t.suiteFor? kind = some suite then .ok true else .error (.duplicateTask p.path name)

/-- Register a task if it is needed. -/
def registerIf (p : Project) (needed : Bool) (t : Task) : Except ProjectFault Project :=
  if needed then p.register t else .ok p

/-- Register the coverage tasks of the default suite that are not there. -/
def registerDefaultCoverage (p : Project) (reportsDir : String) (data : ExecutionData) :
    Except ProjectFault Project := do
  let inputs : CoverageInputs := ⟨defaultSuite, data, mainSourceSet⟩
  let hasReport ← p.hasCoverageTask defaultReportTask .report defaultSuite
  let hasVerification ← p.hasCoverageTask defaultVerificationTask .verification defaultSuite
  let p ← p.registerIf (!hasReport) {
    name := defaultReportTask
    action := .report (.below inputs reportsDir defaultTestTask defaultReportTask)
    group := some verificationGroup }
  p.registerIf (!hasVerification) {
    name := defaultVerificationTask
    action := .verification inputs
    group := some verificationGroup }

/-- Enable coverage: the coverage tasks of the default suite, the settings and the capability. Nothing
happens if the project has the capability already. -/
def enableCoverage (p : Project) (reportsDir : String) : Except ProjectFault Project :=
  if p.has .coverage then .ok p
  else do
    let p ←
      match (p.suites.find? defaultSuite).bind (·.executionData) with
      | some data => p.registerDefaultCoverage reportsDir data
      | none => .ok p
    return { p with
      capabilities := p.capabilities.add .coverage
      coverage := some ⟨none, reportsDir⟩ }

/-- Let all report tasks follow a convention, those registered later included. -/
def configureReports (p : Project) (convention : ReportConvention) : Project :=
  { p with
    tasks := p.tasks.mapTasks (·.followConvention convention)
    convention := some convention }

/-- Pin the version of the coverage agent, if coverage is enabled. -/
def pinToolVersion (p : Project) (version : String) : Project :=
  { p with coverage := p.coverage.map fun c => { c with toolVersion := some version } }

end Project

end BuildGraph
