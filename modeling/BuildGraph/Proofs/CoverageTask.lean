import BuildGraph.Coverage.Pass
import BuildGraph.Proofs.TaskGraph

/-!
# What a coverage task keeps

The kind, the inputs and the report places of a coverage task are its outline. Following a convention
changes neither names nor outlines, and doing it twice is doing it once. Whether a report is required
may change; nothing is said of that.
-/

namespace BuildGraph

/-- The part of a coverage task that stays as it was registered. -/
structure CoverageOutline where
  kind : CoverageKind
  inputs : CoverageInputs
  /-- Where the reports go; nowhere for a verification. -/
  locations : List (ReportFormat × String)
deriving DecidableEq, Repr

/-- Where the reports of a task go, by format. -/
def Report.locations (r : Report) : List (ReportFormat × String) :=
  r.outputs.entries.map fun e => (e.1, e.2.location)

/-- The outline of a coverage task. -/
def Task.outline? (t : Task) : Option CoverageOutline :=
  match t.action with
  | .report r => some ⟨.report, r.inputs, r.locations⟩
  | .verification inputs => some ⟨.verification, inputs, []⟩
  | _ => none

/-! ## Conventions -/

namespace ReportConvention

/-- A convention changes no place. -/
theorem location_apply (c : ReportConvention) (f : ReportFormat) (o : ReportOutput) :
    (c.apply f o).location = o.location := rfl

/-- Asking twice for a format is asking once. -/
theorem apply_apply (c : ReportConvention) (f : ReportFormat) (o : ReportOutput) :
    c.apply f (c.apply f o) = c.apply f o := by
  simp [apply]

end ReportConvention

namespace Report

/-- A convention changes no input. -/
theorem inputs_follow (r : Report) (c : ReportConvention) : (r.follow c).inputs = r.inputs := rfl

/-- A convention changes no place of a report, in any format. -/
theorem locations_follow (r : Report) (c : ReportConvention) : (r.follow c).locations = r.locations := by
  simp [locations, follow, SortedMap.mapValues, ReportConvention.location_apply]

/-- A report that follows a convention goes on following it. -/
theorem follow_follow (r : Report) (c : ReportConvention) : (r.follow c).follow c = r.follow c := by
  have h : (r.outputs.mapValues c.apply).mapValues c.apply = r.outputs.mapValues c.apply := by
    refine SortedMap.ext fun f => ?_
    rw [SortedMap.find?_mapValues, SortedMap.find?_mapValues, Option.map_map]
    simp only [Function.comp_def, ReportConvention.apply_apply]
  simp only [follow, h]

/-- A report is in its place, whatever convention it follows. -/
theorem location_below_follow (inputs : CoverageInputs) (root partition task : String)
    (c : ReportConvention) (f : ReportFormat) :
    ((((below inputs root partition task).follow c).outputs.find? f).map (·.location)) =
      some (f.location root partition task) := by
  rw [follow, SortedMap.find?_mapValues]
  cases f <;> rfl

end Report

namespace Task

/-- A convention renames no task. -/
theorem name_followConvention (t : Task) (c : ReportConvention) :
    (t.followConvention c).name = t.name := by
  unfold followConvention
  split <;> rfl

/-- Since a convention renames nothing, it may be applied to the tasks of a graph directly. -/
theorem keepName_followConvention (t : Task) (c : ReportConvention) :
    TaskGraph.keepName (followConvention · c) t = t.followConvention c := by
  rw [TaskGraph.keepName, ← name_followConvention t c]

/-- A convention keeps the outline of a task, which leaves out what is required. -/
theorem outline?_followConvention (t : Task) (c : ReportConvention) :
    (t.followConvention c).outline? = t.outline? := by
  cases h : t.action <;>
    simp [followConvention, outline?, h, Report.inputs_follow, Report.locations_follow]

/-- A task that follows a convention goes on following it. -/
theorem followConvention_followConvention (t : Task) (c : ReportConvention) :
    (t.followConvention c).followConvention c = t.followConvention c := by
  cases h : t.action <;> simp [followConvention, h, Report.follow_follow]

/-- Only reports can fail to follow a convention. -/
theorem followConvention_eq_self_iff {t : Task} {c : ReportConvention} :
    t.followConvention c = t ↔ ∀ r, t.action = .report r → r.follow c = r := by
  obtain ⟨name, action, group, description, dependsOn⟩ := t
  cases action <;> simp [followConvention]

/-! ## Suites of coverage tasks -/

/-- The suite of a coverage task is in its outline. -/
theorem suiteFor?_eq_some_iff {t : Task} {kind : CoverageKind} {suite : String} :
    t.suiteFor? kind = some suite ↔
      ∃ o, t.outline? = some o ∧ o.kind = kind ∧ o.inputs.suite = suite := by
  cases h : t.action <;> cases kind <;> simp [suiteFor?, outline?, h]

/-- The outline of a task tells for which suite it is. -/
theorem suiteFor?_congr {t u : Task} (h : t.outline? = u.outline?) (kind : CoverageKind) :
    t.suiteFor? kind = u.suiteFor? kind := by
  ext suite
  rw [suiteFor?_eq_some_iff, suiteFor?_eq_some_iff, h]

/-- The outline of a task tells its inputs. -/
theorem coverageInputs?_eq (t : Task) : t.coverageInputs? = t.outline?.map (·.inputs) := by
  cases h : t.action <;> simp [coverageInputs?, outline?, h]

end Task

end BuildGraph
