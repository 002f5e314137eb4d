import BuildGraph.Path
import BuildGraph.SortedMap

/-!
# Tasks

A task compiles, runs the tests of a suite, renders coverage reports of a suite, or checks the coverage
of a suite. It may depend on other tasks by name.
-/

namespace BuildGraph

/-- The data that a test task records for the coverage of its tests. -/
structure ExecutionData where
  /-- The task that produces the data. -/
  task : String
  file : String
deriving DecidableEq, Repr

/-- A format of coverage reports. -/
inductive ReportFormat where
  | html
  | xml
  | csv
deriving DecidableEq, Repr

namespace ReportFormat

/-- All formats in their order. -/
def all : List ReportFormat := [.html, .xml, .csv]

/-- The place of a format in the order. -/
def rank : ReportFormat → Nat
  | .html => 0
  | .xml => 1
  | .csv => 2

/-- Formats of one rank are one, so that their order decides equality. -/
theorem rank_injective {a b : ReportFormat} (h : a.rank = b.rank) : a = b := by
  cases a <;> cases b <;> simp_all [rank]

instance : Ord ReportFormat := ⟨fun a b => compare a.rank b.rank⟩

instance : Std.TransOrd ReportFormat where
  eq_swap := Std.OrientedOrd.eq_swap (α := Nat)
  isLE_trans := Std.TransOrd.isLE_trans (α := Nat)

instance : Std.LawfulEqOrd ReportFormat where
  compare_self := Std.ReflOrd.compare_self (α := Nat)
  eq_of_compare h := rank_injective (Std.LawfulEqOrd.eq_of_compare h)

/-- What a format is called; also the ending of its files. -/
def name : ReportFormat → String
  | .html => "html"
  | .xml => "xml"
  | .csv => "csv"

/-- Whether reports of a format fill a directory, not a file. -/
def isDirectory : ReportFormat → Bool
  | .html => true
  | .xml => false
  | .csv => false

/-- Where the report of a task goes: below `root` in the partition, to a directory called after the
format or to a file called after the task. -/
def location (f : ReportFormat) (root partition task : String) : String :=
  Path.join (Path.join root partition) (if f.isDirectory then f.name else task ++ "." ++ f.name)

end ReportFormat

/-- A report in one format. -/
structure ReportOutput where
  /-- Whether the report has to be rendered. -/
  required : Bool
  location : String
deriving DecidableEq, Repr

/-- What the coverage of a suite is computed from. -/
structure CoverageInputs where
  suite : String
  executionData : ExecutionData
  /-- The source set whose coverage is measured. -/
  sourceSet : String
deriving DecidableEq, Repr

/-- Formats that reports have to be rendered in. -/
structure ReportConvention where
  required : List ReportFormat
deriving DecidableEq, Repr

namespace ReportConvention

/-- A page for people and a file for tools. -/
def htmlAndXml : ReportConvention := ⟨[.html, .xml]⟩

/-- A report in the format `f` that is required if the convention says so, or was before. -/
def apply (c : ReportConvention) (f : ReportFormat) (o : ReportOutput) : ReportOutput :=
  { o with required := o.required || c.required.contains f }

end ReportConvention

/-- The coverage reports of a suite. -/
structure Report where
  inputs : CoverageInputs
  /-- The report in each format that the task renders. -/
  outputs : SortedMap ReportFormat ReportOutput
deriving DecidableEq

namespace Report

/-- Reports of a task in all formats, at their places below `root`. Only the page has to be rendered. -/
def below (inputs : CoverageInputs) (root partition task : String) : Report where
  inputs
  outputs := .ofList (ReportFormat.all.map fun f => (f, ⟨f = .html, f.location root partition task⟩))

/-- Require the formats of a convention; what is required already stays so. -/
def follow (r : Report) (c : ReportConvention) : Report :=
  { r with outputs := r.outputs.mapValues c.apply }

end Report

/-- The run of the tests of a suite. -/
structure TestExecution where
  suite : String
  /-- The class loaders that the coverage agent leaves alone; `none` if nobody has said. -/
  excludedLoaders : Option (List String) := none
  properties : SortedMap String String := .empty
deriving DecidableEq

/-- What a task does. -/
inductive Action where
  | compile
  | test (execution : TestExecution)
  | report (report : Report)
  | verification (inputs : CoverageInputs)
deriving DecidableEq

/-- A task. -/
structure Task where
  name : String
  action : Action
  group : Option String := none
  description : Option String := none
  /-- The names of the tasks that have to run before. -/
  dependsOn : SortedSet String := .empty
deriving DecidableEq

/-- The two kinds of coverage task. -/
inductive CoverageKind where
  | report
  | verification
deriving DecidableEq, Repr

namespace Task

/-- What the coverage of a coverage task is computed from. -/
def coverageInputs? (t : Task) : Option CoverageInputs :=
  match t.action with
  | .report r => some r.inputs
  | .verification inputs => some inputs
  | _ => none

/-- The suite of a coverage task of the given kind. -/
def suiteFor? (t : Task) (kind : CoverageKind) : Option String :=
  match t.action, kind with
  | .report r, .report => some r.inputs.suite
  | .verification inputs, .verification => some inputs.suite
  | _, _ => none

/-- Let a report task follow a convention. -/
def followConvention (t : Task) (convention : ReportConvention) : Task :=
  match t.action with
  | .report r => { t with action := .report (r.follow convention) }
  | _ => t

/-- Change the test run of a test task. -/
def mapExecution (f : TestExecution → TestExecution) (t : Task) : Task :=
  match t.action with
  | .test e => { t with action := .test (f e) }
  | _ => t

end Task

end BuildGraph
