import BuildGraph.Proofs.IncrementalPass
import BuildGraph.Proofs.MatrixOutputs
import BuildGraph.Proofs.TaskHistory
import Mathlib.Data.List.Pairwise

/-!
# Places of reports

After a pass each report task of a project reports in a partition of its own: the default suite in
`test`, which no other suite can be called, and any other suite in one of its name. Two texts are one place
if they have the same components, and the empty partition and `.` leave no trace in those. As long as names
of suites have no slashes, two reports share a place only if they are the pages of a suite with the empty
name and of a suite `.`, and then only if the directory of reports has a name.
-/

namespace BuildGraph

open BuildGraph.Path

/-! ## Files of a task -/

namespace ReportFormat

variable {f g : ReportFormat} {task other : String}

/-- What the report of a task is called. -/
def leaf (f : ReportFormat) (task : String) : String :=
  if f.isDirectory then f.name else task ++ "." ++ f.name

/-- A report lies in its partition, under the name that its format gives it. -/
theorem location_eq (f : ReportFormat) (root partition task : String) :
    f.location root partition task = join (join root partition) (f.leaf task) := rfl

/-- Three characters at the end of its name tell the format of a report. -/
theorem end_leaf (f : ReportFormat) (task : String) :
    (f.leaf task).toList.reverse.take 3 = f.name.toList.reverse.take 3 := by
  cases f <;> simp [leaf, isDirectory, name]

/-- Reports of one name have one format, whatever tasks they are of. -/
theorem eq_of_leaf (h : f.leaf task = g.leaf other) : f = g := by
  have hend := f.end_leaf task
  rw [h, g.end_leaf other] at hend
  revert hend
  cases f <;> cases g <;> decide

/-- The name of a report that is a file tells the task; all pages are called the same. -/
theorem task_of_leaf (hf : f ≠ .html) (h : f.leaf task = f.leaf other) : task = other := by
  have hfile : f.isDirectory = false := by
    cases f with
    | html => exact absurd rfl hf
    | xml => rfl
    | csv => rfl
  rw [leaf, leaf, hfile, if_neg Bool.false_ne_true, if_neg Bool.false_ne_true, String.append_left_inj,
    String.append_left_inj] at h
  exact h

/-- A report's name is one component of a path, even if its task has an empty name. -/
theorem isName_leaf (ht : '/' ∉ task.toList) (f : ReportFormat) : IsName (f.leaf task) := by
  have hlength : 1 < (f.leaf task).toList.length := by cases f <;> simp [leaf, isDirectory, name]
  refine ⟨?_, fun e => ?_, fun e => ?_⟩
  · cases f <;> simp [leaf, isDirectory, name, ht]
  · simp [e] at hlength
  · simp [e] at hlength

end ReportFormat

/-! ## Partitions -/

/-- The report task that reports in a partition. -/
def partitionTask (partition : String) : String :=
  if partition = defaultTestTask then defaultReportTask else reportTaskName partition

/-- A task reports in one partition only: no suite's report task is called as that of the default suite. -/
theorem partitionTask_injective : Function.Injective partitionTask := by
  have hhost : ∀ suite, defaultReportTask ≠ reportTaskName suite := fun suite =>
    (append_ne (by decide) suite).symm
  intro partition other h
  unfold partitionTask at h
  split at h <;> split at h
  · exact ‹partition = _›.trans ‹other = _›.symm
  · exact absurd h (hhost other)
  · exact absurd h.symm (hhost partition)
  · exact (String.append_right_inj "coverage-report-").mp h

/-- Names of suites that leave no trace in a path. -/
def tracelessSuites : List String := ["", "."]

/-- A suite whose name is the empty piece or a dot leaves no trace. -/
theorem mem_tracelessSuites_of_toList {suite : String} (h : suite.toList ∈ [[], ['.']]) :
    suite ∈ tracelessSuites :=
  List.mem_pair.mpr ((List.mem_pair.mp h).imp (String.toList_injective ·) (String.toList_injective ·))

/-- Suites that leave no trace leave the same one. -/
theorem proper_of_traceless {suite other : String} (h : suite ∈ tracelessSuites)
    (h' : other ∈ tracelessSuites) : proper [suite.toList] = proper [other.toList] := by
  rcases List.mem_pair.mp h with rfl | rfl <;> rcases List.mem_pair.mp h' with rfl | rfl <;> decide

/-- No suite that leaves no trace is the default one, so each has a report task of its own name. -/
theorem map_partitionTask_tracelessSuites :
    tracelessSuites.map partitionTask = tracelessSuites.map reportTaskName := by decide

namespace Task

variable {t u : Task}

/-- The reports of a task: the format and the place of each. -/
def reports (t : Task) : List (ReportFormat × String) :=
  match t.action with
  | .report r => r.locations
  | _ => []

/-- Where reports go is part of them. -/
theorem locations_eq (t : Task) : t.locations = t.reports.map (·.2) := by
  cases h : t.action <;> simp [locations, reports, h]

/-- The outline of a task tells its reports. -/
theorem reports_congr (h : t.outline? = u.outline?) : t.reports = u.reports := by
  cases ht : t.action <;> cases hu : u.action <;> simp_all [outline?, reports]

/-- Only a coverage task reports. -/
theorem reports_of_outline? (h : t.outline? = none) : t.reports = [] := by
  cases ha : t.action <;> simp_all [outline?, reports]

/-- A convention moves no report. -/
theorem reports_followConvention (t : Task) (c : ReportConvention) :
    (t.followConvention c).reports = t.reports :=
  reports_congr (outline?_followConvention t c)

end Task

namespace Project

variable {p q : Project} {t u : Task} {root partition other : String} {f g : ReportFormat}

/-- Where all reports of a project go. -/
def reportPlaces (p : Project) : List String := p.tasks.tasks.flatMap (·.locations)

/-- Whether a task of a project reports in a format at a place. -/
def ReportsAt (p : Project) (task : String) (f : ReportFormat) (place : String) : Prop :=
  ∃ t, p.task? task = some t ∧ (f, place) ∈ t.reports

/-- Whether a task reports in a partition of a project. -/
structure ReportsIn (p : Project) (root partition : String) (t : Task) : Prop where
  known : partition = defaultTestTask ∨ p.suites.contains partition
  name : t.name = partitionTask partition
  reports : t.reports = ReportFormat.all.map fun f => (f, f.location root partition t.name)

namespace ReportsIn

/-- A task that reports in a partition has all its places there. -/
theorem locations (h : p.ReportsIn root partition t) :
    t.locations = ReportFormat.all.map fun f => f.location root partition t.name := by
  rw [Task.locations_eq, h.reports, List.map_map]
  rfl

/-- Without slashes in names of suites there are none in partitions and in names of report tasks. -/
theorem noSlash (h : p.ReportsIn root partition t)
    (hs : ∀ suite, p.suites.contains suite → '/' ∉ suite.toList) :
    '/' ∉ partition.toList ∧ '/' ∉ t.name.toList := by
  have hpartition : '/' ∉ partition.toList := by
    rcases h.known with rfl | hc
    · decide
    · exact hs partition hc
  refine ⟨hpartition, ?_⟩
  rw [h.name, partitionTask]
  split
  · decide
  · have hname : (reportTaskName partition).toList = "coverage-report-".toList ++ partition.toList :=
      String.toList_append
    rw [hname]
    exact List.not_mem_append (by decide) hpartition

/-- Tasks tell partitions, and partitions tell tasks. -/
theorem name_eq_iff (ht : p.ReportsIn root partition t) (hu : p.ReportsIn root other u) :
    t.name = u.name ↔ partition = other := by
  rw [ht.name, hu.name]
  exact partitionTask_injective.eq_iff

/-- A partition leaves no trace exactly if its task is that of a suite that leaves none. -/
theorem name_mem_iff (h : p.ReportsIn root partition t) :
    t.name ∈ tracelessSuites.map reportTaskName ↔ partition ∈ tracelessSuites := by
  rw [h.name, ← map_partitionTask_tracelessSuites]
  exact List.mem_map_of_injective partitionTask_injective

/-- A partition that leaves no trace is a suite's, for the default suite reports in `test`. -/
theorem contains_of_traceless (h : p.ReportsIn root partition t) (hp : partition ∈ tracelessSuites) :
    p.suites.contains partition := by
  refine h.known.resolve_left fun e => ?_
  rw [e] at hp
  exact absurd hp (by decide)

/-- Two reports are in one place exactly if they are one, or if they are pages in partitions that leave no
trace behind a directory with a name. -/
theorem components_eq_iff (ht : p.ReportsIn root partition t) (hu : p.ReportsIn root other u)
    (hs : ∀ suite, p.suites.contains suite → '/' ∉ suite.toList) :
    components (f.location root partition t.name) = components (g.location root other u.name) ↔
      (partition = other ∧ f = g) ∨
        (root ≠ "" ∧ f = .html ∧ g = .html ∧ partition ∈ tracelessSuites ∧ other ∈ tracelessSuites) := by
  obtain ⟨hdir, hname⟩ := ht.noSlash hs
  obtain ⟨hdir', hname'⟩ := hu.noSlash hs
  constructor
  · intro h
    have hnames : names (f.location root partition t.name) = names (g.location root other u.name) :=
      congrArg Prod.snd h
    rw [ReportFormat.location_eq, ReportFormat.location_eq,
      names_join_join hdir (ReportFormat.isName_leaf hname f),
      names_join_join hdir' (ReportFormat.isName_leaf hname' g)] at hnames
    obtain ⟨htrace, hlast⟩ := List.append_inj' hnames rfl
    have hleaf : f.leaf t.name = g.leaf u.name := String.toList_injective (List.singleton_inj.mp hlast)
    obtain rfl := ReportFormat.eq_of_leaf hleaf
    -- A file is called by its task. Only pages are called the same, so they have to differ by partition.
    by_cases hf : f = .html
    · split at htrace
      · exact Or.inl ⟨String.toList_injective (filter_singleton_injective htrace), rfl⟩
      · rename_i hroot
        rcases proper_singleton_injective (List.append_cancel_left htrace) with he | ⟨hx, hy⟩
        · exact Or.inl ⟨String.toList_injective he, rfl⟩
        · exact Or.inr ⟨hroot, hf, hf, mem_tracelessSuites_of_toList hx, mem_tracelessSuites_of_toList hy⟩
    · exact Or.inl ⟨(ht.name_eq_iff hu).mp (ReportFormat.task_of_leaf hf hleaf), rfl⟩
  · rintro (⟨rfl, rfl⟩ | ⟨hroot, rfl, rfl, hx, hy⟩)
    · rw [(ht.name_eq_iff hu).mpr rfl]
    · have hpage : ReportFormat.html.leaf t.name = ReportFormat.html.leaf u.name := rfl
      rw [ReportFormat.location_eq, ReportFormat.location_eq, ← hpage]
      exact components_join_join hdir hdir' (ReportFormat.isName_leaf hname .html) hroot
        (proper_of_traceless hx hy)

/-- Places tell partitions and formats, unless both suites that leave no trace are there. -/
theorem eq_of_components (ht : p.ReportsIn root partition t) (hu : p.ReportsIn root other u)
    (hs : ∀ suite, p.suites.contains suite → '/' ∉ suite.toList)
    (hapart : root = "" ∨ ¬ (p.suites.contains "" ∧ p.suites.contains "."))
    (h : components (f.location root partition t.name) = components (g.location root other u.name)) :
    partition = other ∧ f = g := by
  rcases (ht.components_eq_iff hu hs).mp h with hsame | ⟨hroot, rfl, rfl, hx, hy⟩
  · exact hsame
  · have hnot := hapart.resolve_left hroot
    have hc := ht.contains_of_traceless hx
    have hc' := hu.contains_of_traceless hy
    rcases List.mem_pair.mp hx with rfl | rfl <;> rcases List.mem_pair.mp hy with rfl | rfl
    · exact ⟨rfl, rfl⟩
    · exact absurd ⟨hc, hc'⟩ hnot
    · exact absurd ⟨hc', hc⟩ hnot
    · exact ⟨rfl, rfl⟩

end ReportsIn

/-- Whether all reports of a project are in partitions of `p`. -/
def Partitioned (p : Project) (root : String) (q : Project) : Prop :=
  ∀ t ∈ q.tasks.tasks, t.reports = [] ∨ ∃ partition, p.ReportsIn root partition t

namespace Partitioned

/-- A report of a partitioned project has the place that its partition gives it. -/
theorem exists_reportsIn (h : p.Partitioned root q) {task place : String} (hr : q.ReportsAt task f place) :
    ∃ t partition, p.ReportsIn root partition t ∧ t.name = task ∧
      place = f.location root partition t.name := by
  obtain ⟨t, htask, hm⟩ := hr
  obtain ⟨ht, hname⟩ := TaskGraph.get?_eq_some_iff.mp htask
  rcases h t ht with hnone | ⟨partition, hreports⟩
  · rw [hnone] at hm
    cases hm
  · rw [hreports.reports] at hm
    obtain ⟨f', _, he⟩ := List.mem_map.mp hm
    obtain ⟨rfl, rfl⟩ := Prod.mk.inj he
    exact ⟨t, partition, hreports, hname, rfl⟩

/-- If places in partitions tell partitions and formats, no place is given twice. -/
theorem nodup_components (h : p.Partitioned root q)
    (hplaces : ∀ {t u partition other f g}, p.ReportsIn root partition t → p.ReportsIn root other u →
      components (ReportFormat.location f root partition t.name) =
        components (ReportFormat.location g root other u.name) → partition = other ∧ f = g) :
    (q.reportPlaces.map components).Nodup := by
  have hnames : q.tasks.tasks.Pairwise (·.name ≠ ·.name) :=
    List.pairwise_map.mp (List.nodup_iff_pairwise_ne.mp q.tasks.nodup_names)
  rw [reportPlaces, List.map_flatMap, List.nodup_flatMap]
  refine ⟨fun t ht => ?_, hnames.imp_of_mem fun {t u} ht hu hne => ?_⟩
  · rcases h t ht with hnone | ⟨partition, hr⟩
    · rw [Task.locations_eq, hnone]
      exact List.nodup_nil
    · rw [hr.locations, List.map_map]
      exact List.Nodup.map_on (fun f _ g _ e => (hplaces hr hr e).2) (by decide)
  · refine List.disjoint_left.mpr fun x (hx : x ∈ t.locations.map components)
      (hy : x ∈ u.locations.map components) => ?_
    rcases h t ht with hnone | ⟨partition, hr⟩
    · simp [Task.locations_eq, hnone] at hx
    rcases h u hu with hnone | ⟨other, hr'⟩
    · simp [Task.locations_eq, hnone] at hy
    rw [hr.locations, List.map_map] at hx
    rw [hr'.locations, List.map_map] at hy
    obtain ⟨f, _, rfl⟩ := List.mem_map.mp hx
    obtain ⟨g, _, he⟩ := List.mem_map.mp hy
    exact hne ((hr.name_eq_iff hr').mpr (hplaces hr hr' he.symm).1)

end Partitioned

end Project

namespace CoveragePass

open Project

variable {pass : CoveragePass} {p q : Project} {t : Task} {version suite : String}
  {created : List String}

/-- The report task of a suite reports in the partition of its name, for no suite is called `test`. -/
theorem reportsIn_reportTask {inputs : CoverageInputs} (htest : p.suites.contains defaultTestTask = false)
    (hs : p.suites.contains suite) (hi : suiteInputs p suite = .ok inputs) (root : String) :
    p.ReportsIn root suite (pass.reportTask inputs root) := by
  obtain rfl := suite_of_suiteInputs hi
  have hne : inputs.suite ≠ defaultTestTask := by
    intro e
    rw [← e, hs] at htest
    cases htest
  refine ⟨Or.inr hs, (if_neg hne).symm, ?_⟩
  rw [Task.reports, reportTask]
  simp only [Report.locations_follow, Report.locations_below]

/-- What a pass registers reports in a partition of the project, or not at all. -/
theorem Registers.partitioned (h : pass.Registers p t)
    (htest : p.suites.contains defaultTestTask = false) :
    t.reports = [] ∨ ∃ partition, p.ReportsIn (pass.reportsHome p) partition t := by
  cases h with
  | @host t hc ht =>
    rw [Task.reports_followConvention]
    unfold hostTasks at ht
    split at ht
    · rename_i data _
      rcases List.mem_pair.mp ht with rfl | rfl
      · refine Or.inr ⟨defaultTestTask, Or.inl rfl, ?_, ?_⟩
        · rw [Task.name_followConvention]
          exact (if_pos rfl).symm
        · rw [Task.reports_followConvention, Task.name_followConvention]
          simp only [Task.reports, hostReport, Report.locations_below]
      · exact Or.inl rfl
    · cases ht
  | suite hs hd hi ht =>
    rcases List.mem_pair.mp ht with rfl | rfl
    · exact Or.inr ⟨_, reportsIn_reportTask htest hs hi _⟩
    · exact Or.inl rfl

/-- After a pass on a project without coverage tasks every report is in a partition of the project. -/
theorem Finished.partitioned (h : pass.Finished version p q) (hp : Bare p)
    (htest : p.suites.contains defaultTestTask = false) : p.Partitioned (pass.reportsHome p) q := by
  intro t ht
  have htask : q.task? t.name = some t := TaskGraph.get?_eq_some_iff.mpr ⟨ht, rfl⟩
  cases hf : p.task? t.name with
  | none => exact (h.gained hf htask).partitioned htest
  | some u =>
    obtain ⟨v, hv, hsettle⟩ := h.kept hf
    obtain rfl := Option.some.inj (htask.symm.trans hv)
    refine Or.inl (Task.reports_of_outline? ?_)
    rw [← outline?_settle pass p t, hsettle, outline?_settle, hp.outline hf]

/-- Every suite with a report task of its own reports. -/
theorem Finished.exists_reportsIn (h : pass.Finished version p q) (hp : Bare p)
    (htest : p.suites.contains defaultTestTask = false) (hs : p.suites.contains suite)
    (hd : suite ≠ defaultSuite) :
    ∃ t ∈ q.tasks.tasks, p.ReportsIn (pass.reportsHome p) suite t := by
  have hfree := h.free_of_holds hp (h.covers hs hd).report
  obtain ⟨t, ht, _⟩ := (h.covers hs hd).report
  obtain ⟨hreg, hn⟩ := h.task?_of_name hfree ht
  obtain ⟨inputs, hi, hm⟩ := hreg.of_suite (mem_suiteTaskNames.mpr (Or.inl hn))
  rcases List.mem_pair.mp hm with rfl | rfl
  · exact ⟨_, (TaskGraph.get?_eq_some_iff.mp ht).1, reportsIn_reportTask htest hs hi _⟩
  · exact absurd hn.symm (reportTaskName_ne_verificationTaskName _ _)

/-- The pages of the empty suite and of the suite `.` are one directory, unless paths start with them. -/
theorem Finished.not_nodup_components (h : pass.Finished version p q) (hp : Bare p)
    (htest : p.suites.contains defaultTestTask = false)
    (hs : ∀ suite, p.suites.contains suite → '/' ∉ suite.toList) (hroot : pass.reportsHome p ≠ "")
    (hempty : p.suites.contains "") (hdot : p.suites.contains ".") :
    ¬ (q.reportPlaces.map components).Nodup := by
  obtain ⟨t, ht, hr⟩ := h.exists_reportsIn hp htest hempty (by decide)
  obtain ⟨u, hu, hr'⟩ := h.exists_reportsIn hp htest hdot (by decide)
  have hpage : ∀ {v partition}, p.ReportsIn (pass.reportsHome p) partition v →
      components (ReportFormat.html.location (pass.reportsHome p) partition v.name) ∈
        v.locations.map components := by
    intro v partition hreports
    rw [hreports.locations]
    exact List.mem_map_of_mem (List.mem_map_of_mem (by decide))
  have hsame := (hr.components_eq_iff (f := .html) (g := .html) hr' hs).mpr
    (Or.inr ⟨hroot, rfl, rfl, by decide, by decide⟩)
  have hne : t ≠ u := fun e => absurd ((hr.name_eq_iff hr').mp (congrArg Task.name e)) (by decide)
  intro hnodup
  rw [reportPlaces, List.map_flatMap, List.nodup_flatMap] at hnodup
  have hsymm : Std.Symm (Function.onFun List.Disjoint fun v : Task => v.locations.map components) :=
    ⟨fun _ _ h _ hv hu => h hu hv⟩
  have hdisjoint : (t.locations.map components).Disjoint (u.locations.map components) :=
    hnodup.2.forall ht hu hne
  have hshared := hpage hr'
  rw [← hsame] at hshared
  exact hdisjoint (hpage hr) hshared

end CoveragePass

/-! ## Workspaces -/

namespace Workspace

variable {c : Context} {projects : List Project} {p q : Project} {pass : CoveragePass}
  {created : List String}

/-- After a pass that gets through, the reports of a project have different places as long as names of
suites have no slashes, unless both a suite with the empty name and a suite `.` are there and the directory
of reports has a name. In every case two reports share a place only if they are the pages of those two. -/
theorem reports_apart (hb : buildProjects c = .ok projects) (hp : p ∈ projects)
    (hs : ∀ suite, p.suites.contains suite → '/' ∉ suite.toList)
    (h : pass.configure p = (q, .ok (.configured created))) :
    ((q.reportPlaces.map components).Nodup ↔
        pass.reportsHome p = "" ∨ ¬ (p.suites.contains "" ∧ p.suites.contains ".")) ∧
      ∀ {task other x y : String} {f g : ReportFormat}, q.ReportsAt task f x → q.ReportsAt other g y →
        (components x = components y ↔ (task = other ∧ f = g) ∨
          (pass.reportsHome p ≠ "" ∧ f = .html ∧ g = .html ∧
            task ∈ tracelessSuites.map reportTaskName ∧ other ∈ tracelessSuites.map reportTaskName)) := by
  have hbare : p.Bare := of_buildEach (fun spec _ p hp => .of_buildProject hp) hb p hp
  have htest := (Built.of_buildEach hb p hp).reachable.contains_defaultTestTask
  obtain ⟨version, hfinished⟩ := CoveragePass.Begun.finished hbare (Or.inl rfl) h
  have hpartitioned := hfinished.partitioned hbare htest
  refine ⟨⟨fun hnodup => ?_, fun hapart => ?_⟩, fun {task other x y f g} hx hy => ?_⟩
  · by_contra hboth
    rw [not_or, not_not] at hboth
    exact hfinished.not_nodup_components hbare htest hs hboth.1 hboth.2.1 hboth.2.2 hnodup
  · exact hpartitioned.nodup_components fun ht hu heq => ht.eq_of_components hu hs hapart heq
  · obtain ⟨t, partition, ht, rfl, rfl⟩ := hpartitioned.exists_reportsIn hx
    obtain ⟨u, partition', hu, rfl, rfl⟩ := hpartitioned.exists_reportsIn hy
    rw [ht.components_eq_iff hu hs, ht.name_eq_iff hu, ht.name_mem_iff, hu.name_mem_iff]

/-- The keys of the suites tell whether a name has a slash. -/
theorem noSlash_of_keys {keys : List String} (hkeys : p.suites.keys = keys)
    (h : ∀ name ∈ keys, '/' ∉ name.toList) :
    ∀ suite, p.suites.contains suite → '/' ∉ suite.toList := by
  intro suite hc
  refine h suite ?_
  rwa [← hkeys, SortedMap.mem_keys_iff]

/-- What a workspace of one project shows of it. -/
theorem exists_of_map_singleton {β : Type} {f : Project → β} {b : β}
    (h : (buildProjects c).map (·.map f) = .ok [b]) : ∃ p, buildProjects c = .ok [p] ∧ f p = b := by
  obtain ⟨projects, hb, heq⟩ := except_map_ok h
  obtain ⟨p, rfl, hf⟩ := List.map_eq_singleton_iff.mp heq.symm
  exact ⟨p, hb, hf⟩

/-- A project with a suite that leaves no trace in a path, next to one that is called as its page. -/
def namelessSample : Context :=
  .new "/work" {
    projects := [{
      path := ":model"
      suites := [
        { name := "", executionData := some "empty.exec" },
        { name := "html", executionData := some "html.exec" }] }] } {} .default

/-- The page of the nameless suite is the directory that the other suite reports in, yet no two reports of
the project are one place. -/
theorem namelessSample_apart :
    ∃ p created, buildProjects namelessSample = .ok [p] ∧
      (∀ suite, p.suites.contains suite → '/' ∉ suite.toList) ∧
      (CoveragePass.sample.configure p).2 = .ok (.configured created) ∧
      p.suites.contains "" ∧ CoveragePass.sample.reportsHome p = "/work/model/build/reports" ∧
      ((CoveragePass.sample.configure p).1.reportPlaces.map components).Nodup := by
  have hrun : (buildProjects namelessSample).map (·.map fun p =>
      (p.suites.keys, p.buildDir, (CoveragePass.sample.configure p).2)) =
        .ok [(["", "default", "html"], "/work/model/build", .ok (.configured ["coverage-report-",
          "coverage-verification-", "coverage-report-html", "coverage-verification-html"]))] := by decide
  obtain ⟨p, h, hp⟩ := exists_of_map_singleton hrun
  obtain ⟨hkeys, hrest⟩ := Prod.mk.inj hp
  obtain ⟨hdir, hout⟩ := Prod.mk.inj hrest
  have hnames := noSlash_of_keys hkeys (by decide)
  have hempty : p.suites.contains "" := SortedMap.mem_keys_iff.mp (hkeys ▸ by decide)
  have hdot : ¬ p.suites.contains "." := fun hc =>
    absurd (hkeys ▸ SortedMap.mem_keys_iff.mpr hc : "." ∈ ["", "default", "html"]) (by decide)
  have hhome : CoveragePass.sample.reportsHome p = "/work/model/build/reports" := by
    rw [CoveragePass.reportsHome, hdir]
    decide
  obtain ⟨hapart, -⟩ := reports_apart h (List.mem_singleton.mpr rfl) hnames (Prod.ext rfl hout)
  exact ⟨p, _, h, hnames, hout, hempty, hhome, hapart.mpr (Or.inr fun hboth => hdot hboth.2)⟩

/-- A project with two suites that leave no trace in a path. -/
def dottedSample : Context :=
  .new "/work" {
    projects := [{
      path := ":model"
      suites := [
        { name := "", executionData := some "empty.exec" },
        { name := ".", executionData := some "dot.exec" }] }] } {} .default

/-- No suite of it has a slash in its name and the pass gets through, but the pages of the two suites are
one directory. -/
theorem dottedSample_shares_page :
    ∃ p created, buildProjects dottedSample = .ok [p] ∧
      (∀ suite, p.suites.contains suite → '/' ∉ suite.toList) ∧
      (CoveragePass.sample.configure p).2 = .ok (.configured created) ∧
      (CoveragePass.sample.configure p).1.reportPlaces = [
        "/work/model/build/reports/test/html", "/work/model/build/reports/test/coverage-report.xml",
        "/work/model/build/reports/test/coverage-report.csv", "/work/model/build/reports/html",
        "/work/model/build/reports/coverage-report-.xml", "/work/model/build/reports/coverage-report-.csv",
        "/work/model/build/reports/./html", "/work/model/build/reports/./coverage-report-..xml",
        "/work/model/build/reports/./coverage-report-..csv"] ∧
      ¬ ((CoveragePass.sample.configure p).1.reportPlaces.map components).Nodup := by
  have hrun : (buildProjects dottedSample).map (·.map fun p =>
      (p.suites.keys, (CoveragePass.sample.configure p).2,
        (CoveragePass.sample.configure p).1.reportPlaces)) =
      .ok [(["", ".", "default"],
        .ok (.configured ["coverage-report-", "coverage-verification-", "coverage-report-.",
          "coverage-verification-."]),
        ["/work/model/build/reports/test/html", "/work/model/build/reports/test/coverage-report.xml",
          "/work/model/build/reports/test/coverage-report.csv", "/work/model/build/reports/html",
          "/work/model/build/reports/coverage-report-.xml",
          "/work/model/build/reports/coverage-report-.csv", "/work/model/build/reports/./html",
          "/work/model/build/reports/./coverage-report-..xml",
          "/work/model/build/reports/./coverage-report-..csv"])] := by decide
  obtain ⟨p, h, hp⟩ := exists_of_map_singleton hrun
  obtain ⟨hkeys, hrest⟩ := Prod.mk.inj hp
  obtain ⟨hout, hplaces⟩ := Prod.mk.inj hrest
  refine ⟨p, _, h, noSlash_of_keys hkeys (by decide), hout, hplaces, ?_⟩
  rw [hplaces]
  decide +kernel

end Workspace

end BuildGraph
