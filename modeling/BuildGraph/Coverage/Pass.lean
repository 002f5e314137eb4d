import BuildGraph.Catalog
import BuildGraph.Coverage.Policy
import BuildGraph.Project

/-!
# The coverage pass

The pass enables coverage on a project, pins the version of the coverage agent, allows for toolchains
that generate classes, and gives each suite but the default one a report task and a verification task.
What is there already stays, so a second pass adds nothing. A pass that fails at a suite leaves what it
has done for earlier ones.
-/

namespace BuildGraph

/-- The name of the report task of a suite. -/
def reportTaskName (suite : String) : String := "coverage-report-" ++ suite

/-- The name of the verification task of a suite. -/
def verificationTaskName (suite : String) : String := "coverage-verification-" ++ suite

/-- What a pass goes by. -/
structure CoveragePass where
  policy : CoveragePolicy
  /-- The directory of reports below each build directory. -/
  reportsDir : String
  /-- The catalog key of the coverage agent's version. -/
  toolVersionKey : String
  catalog : Catalog
  convention : ReportConvention := .htmlAndXml
deriving DecidableEq

/-- What a pass makes of a project. -/
inductive CoverageOutcome where
  /-- The project gets no coverage tasks. -/
  | skipped
  /-- The project has coverage; the names of the tasks that the pass created for suites. -/
  | configured (created : List String)
deriving DecidableEq, Repr

/-- Why a pass fails on a project. -/
inductive CoverageFault where
  | catalog (why : Catalog.LookupFault)
  | project (why : ProjectFault)
deriving DecidableEq, Repr

/-- The fault in words. -/
def CoverageFault.message : CoverageFault → String
  | .catalog why => why.message
  | .project why => why.message

namespace Toolchain

/-- A test run that leaves the toolchain's class loader alone and sets its properties. Loaders that
have been named stay in their order. -/
def adjustExecution (t : Toolchain) (e : TestExecution) : TestExecution :=
  let loaders := e.excludedLoaders.getD []
  { e with
    excludedLoaders :=
      some (if t.excludedClassLoader ∈ loaders then loaders else t.excludedClassLoader :: loaders)
    properties := t.executionProperties.foldl (fun m e => m.insert e.1 e.2) e.properties }

/-- Let `classes` wait for the toolchain's generated sources and adjust all test runs. -/
def adjust (t : Toolchain) (p : Project) : Except ProjectFault Project :=
  if !p.tasks.contains t.generatedSourcesTask then
    .error (.missingTask p.path t.generatedSourcesTask)
  else if !p.tasks.contains classesTask then .error (.missingTask p.path classesTask)
  else
    let waiting := p.tasks.modify classesTask fun task =>
      { task with dependsOn := task.dependsOn.add t.generatedSourcesTask }
    .ok { p with tasks := waiting.mapTasks (Task.mapExecution t.adjustExecution) }

/-- Adjust a project to toolchains one after the other. The project comes back as far as it got. -/
def adjustAll : List Toolchain → Project → Project × Except ProjectFault Unit
  | [], p => (p, .ok ())
  | t :: ts, p =>
    match t.adjust p with
    | .error fault => (p, .error fault)
    | .ok p => adjustAll ts p

end Toolchain

namespace CoveragePass

/-- The pass of settings. -/
def ofSettings (settings : Settings.Coverage) (catalog : Catalog) :
    Except InvalidPattern CoveragePass := do
  let policy ← CoveragePolicy.ofTexts settings.includes settings.excludes
  return {
    policy
    reportsDir := settings.reportsDir
    toolVersionKey := settings.toolVersionKey
    catalog }

/-- Enable coverage and reports by convention, and pin the agent's version. -/
def activate (pass : CoveragePass) (p : Project) : Except CoverageFault Project := do
  let version ← (pass.catalog.version pass.toolVersionKey).mapError .catalog
  let p ← (p.enableCoverage (Path.join p.buildDir pass.reportsDir)).mapError .project
  return ((p.apply .coverageAggregation).configureReports pass.convention).pinToolVersion version

/-- The report task of a suite. -/
def reportTask (pass : CoveragePass) (inputs : CoverageInputs) (root : String) : Task :=
  let name := reportTaskName inputs.suite
  { name
    action := .report ((Report.below inputs root inputs.suite name).follow pass.convention)
    group := some verificationGroup
    description := some ("Generates code coverage report for the " ++ inputs.suite ++ " suite.") }

/-- The verification task of a suite. -/
def verificationTask (inputs : CoverageInputs) : Task where
  name := verificationTaskName inputs.suite
  action := .verification inputs
  group := some verificationGroup
  description := some ("Verifies code coverage metrics based on specified rules for the "
    ++ inputs.suite ++ " suite.")

/-- What the coverage of a suite is computed from. -/
def suiteInputs (p : Project) (suite : String) : Except ProjectFault CoverageInputs :=
  match p.suites.find? suite with
  | none => .error (.unknownSuite p.path suite)
  | some s =>
    match s.executionData with
    | none => .error (.incompleteSuite p.path suite)
    | some data =>
      if p.sourceSets.contains mainSourceSet then .ok ⟨suite, data, mainSourceSet⟩
      else .error (.missingSourceSet p.path mainSourceSet)

/-- Where reports of a project go. -/
def reportsRoot (pass : CoveragePass) (p : Project) : String :=
  match p.coverage with
  | some extension => extension.reportsDir
  | none => Path.join p.buildDir pass.reportsDir

/-- Give a suite the coverage tasks that it lacks; their names come with the project. The default suite
is left alone, and a name held by any other task is a fault. -/
def synthesize (pass : CoveragePass) (p : Project) (suite : String) :
    Except ProjectFault (Project × List String) :=
  if suite = defaultSuite then .ok (p, [])
  else do
    let hasReport ← p.hasCoverageTask (reportTaskName suite) .report suite
    let hasVerification ← p.hasCoverageTask (verificationTaskName suite) .verification suite
    if hasReport && hasVerification then return (p, [])
    let inputs ← suiteInputs p suite
    let report := pass.reportTask inputs (pass.reportsRoot p)
    let verification := verificationTask inputs
    let p ← p.registerIf (!hasReport) report
    let p ← p.registerIf (!hasVerification) verification
    let created := (if hasReport then [] else [report.name])
      ++ (if hasVerification then [] else [verification.name])
    return (p, created)

/-- Give suites their coverage tasks one after the other. The project comes back as far as it got. -/
def synthesizeAll (pass : CoveragePass) :
    List String → Project → Project × Except ProjectFault (List String)
  | [], p => (p, .ok [])
  | suite :: suites, p =>
    match pass.synthesize p suite with
    | .error fault => (p, .error fault)
    | .ok (p, created) =>
      let (p, rest) := synthesizeAll pass suites p
      (p, rest.map (created ++ ·))

/-- Run the pass on a project. -/
def configure (pass : CoveragePass) (p : Project) :
    Project × Except CoverageFault CoverageOutcome :=
  if !pass.policy.isEligible p.path then (p, .ok .skipped)
  else
    match pass.activate p with
    | .error fault => (p, .error fault)
    | .ok p =>
      match Toolchain.adjustAll p.toolchains p with
      | (p, .error fault) => (p, .error (.project fault))
      | (p, .ok ()) =>
        match pass.synthesizeAll p.derivedSuites p with
        | (p, .error fault) => (p, .error (.project fault))
        | (p, .ok created) => (p, .ok (.configured created))

end CoveragePass

end BuildGraph
