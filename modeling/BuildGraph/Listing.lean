import BuildGraph.Document
import BuildGraph.Project

/-!
# Tasks and projects as documents

What a listing shows of a task or a project. Parts of a task that are absent are left out.
-/

namespace BuildGraph

/-- An entry that is left out if its value is absent. -/
def optionalEntry (name : String) : Option String → List (String × Document)
  | none => []
  | some value => [(name, .text value)]

/-- A list of texts. -/
def textList (texts : List String) : Document := .array (texts.map .text)

/-- Execution data. -/
def ExecutionData.encode (d : ExecutionData) : Document :=
  .table [("task", .text d.task), ("file", .text d.file)]

/-- The inputs of a coverage task. -/
def CoverageInputs.encode (i : CoverageInputs) : Document :=
  .table [
    ("suite", .text i.suite),
    ("execution_data", i.executionData.encode),
    ("source_set", .text i.sourceSet)]

/-- A report in one format. -/
def ReportOutput.encode (o : ReportOutput) : Document :=
  .table [("required", .boolean o.required), ("location", .text o.location)]

/-- The entries of a test run. -/
def TestExecution.entries (e : TestExecution) : List (String × Document) := [
  ("suite", .text e.suite),
  ("exclude_class_loaders",
    match e.excludedLoaders with
    | none => .null
    | some loaders => textList loaders),
  ("system_properties", .table (e.properties.entries.map fun (key, value) => (key, .text value)))]

/-- What a task does, by its kind. -/
def Action.encode : Action → Document
  | .compile => .table [("kind", .text "compile")]
  | .test e => .table (("kind", .text "test-execution") :: e.entries)
  | .report r =>
    .table [
      ("kind", .text "coverage-report"),
      ("inputs", r.inputs.encode),
      ("reports", .table (r.outputs.entries.map fun (f, o) => (f.name, o.encode)))]
  | .verification inputs =>
    .table [("kind", .text "coverage-verification"), ("inputs", inputs.encode)]

/-- A task. -/
def Task.encode (t : Task) : Document :=
  .table (
    [("name", .text t.name)]
    ++ optionalEntry "group" t.group
    ++ optionalEntry "description" t.description
    ++ (if t.dependsOn.elements.isEmpty then [] else [("depends_on", textList t.dependsOn.elements)])
    ++ [("action", t.action.encode)])

/-- What a listing shows of a project. -/
def Project.encode (p : Project) : Document :=
  .table [
    ("path", .text p.path),
    ("build_dir", .text p.buildDir),
    ("capabilities", textList (p.capabilities.elements.map (·.name))),
    ("tasks", .array (p.tasks.tasks.map Task.encode))]

end BuildGraph
