import BuildGraph.Proofs.BuiltProject
import BuildGraph.Proofs.Declarations
import BuildGraph.Proofs.MatrixNames
import BuildGraph.Proofs.PathComponents

/-!
# Output of matrix cells

Everything that a project writes, the data of its test runs and its reports, goes below its build
directory. No step of making a project or of a pass leads out of it, unless a suite, a file of data or the
directory of reports is given by an absolute path. The build directory of a matrix cell ends in the
secondary value, which names one directory. Two cells with different secondary values therefore share no
output, even if they are told to build into the same directory.
-/

namespace BuildGraph

open BuildGraph.Path

/-! ## Reports -/

namespace ReportFormat

/-- A report goes below the directory that its root is below. -/
theorem below_location {dir root partition task : String} (h : Below dir root)
    (hp : isAbsolute partition = false) (ht : isAbsolute task = false) (f : ReportFormat) :
    Below dir (f.location root partition task) := by
  have hname : isAbsolute f.name = false := by cases f <;> decide
  have hending : isAbsolute ("." ++ f.name) = false := isAbsolute_append (by decide) hname
  refine (h.join hp).join ?_
  split
  · exact hname
  · rw [String.append_assoc]
    exact isAbsolute_append ht hending

end ReportFormat

namespace Report

/-- A task reports in every format. -/
theorem locations_below (inputs : CoverageInputs) (root partition task : String) :
    (below inputs root partition task).locations =
      ReportFormat.all.map fun f => (f, f.location root partition task) := rfl

/-- Every report goes below the directory that the root of reports is below. -/
theorem below_of_mem_locations (inputs : CoverageInputs) {dir root partition task place : String}
    (h : Below dir root) (hp : isAbsolute partition = false) (ht : isAbsolute task = false)
    (hm : place ∈ (below inputs root partition task).locations.map (·.2)) : Below dir place := by
  rw [locations_below, List.map_map] at hm
  obtain ⟨f, _, rfl⟩ := List.mem_map.mp hm
  exact f.below_location h hp ht

end Report

namespace Task

/-- Where the reports of a task go. -/
def locations (t : Task) : List String :=
  match t.action with
  | .report r => r.locations.map (·.2)
  | _ => []

/-- The outline of a task tells where its reports go. -/
theorem locations_congr {t u : Task} (h : t.outline? = u.outline?) : t.locations = u.locations := by
  cases ht : t.action <;> cases hu : u.action <;> simp_all [outline?, locations]

end Task

/-! ## Projects -/

namespace Project

variable {p q : Project} {dir : String} {ts : List Task}

/-- The places that a project writes to: the data of its suites and the reports of its tasks. -/
def outputs (p : Project) : List String :=
  (p.suites.values.filterMap (·.executionData)).map (·.file) ++ p.tasks.tasks.flatMap (·.locations)

/-- Registering a task moves none of its reports. -/
theorem locations_conform (p : Project) (t : Task) : (p.conform t).locations = t.locations :=
  Task.locations_congr (outline?_conform p t)

/-- The reports of the default suite go below the directory of reports. -/
theorem below_hostTasks {root : String} (hr : Below dir root) :
    ∀ t ∈ p.hostTasks root, ∀ place ∈ t.locations, Below dir place := by
  intro t ht place hm
  unfold hostTasks at ht
  split at ht
  · rename_i data _
    rcases List.mem_pair.mp ht with rfl | rfl
    · exact Report.below_of_mem_locations ⟨defaultSuite, data, mainSourceSet⟩ hr (by decide)
        (by decide) hm
    · cases hm
  · cases ht

/-- Whether a project stays below its build directory. -/
structure Inside (dir : String) (p : Project) : Prop where
  closed : isOpen dir = false
  buildDir : p.buildDir = dir
  suite : ∀ {name s}, p.suites.find? name = some s → isAbsolute name = false
  data : ∀ {name s data}, p.suites.find? name = some s → s.executionData = some data →
    Below dir data.file
  reports : ∀ t ∈ p.tasks.tasks, ∀ place ∈ t.locations, Below dir place
  coverage : ∀ extension, p.coverage = some extension → Below dir extension.reportsDir

namespace Inside

/-- All that such a project writes is below the directory. -/
theorem outputs (h : p.Inside dir) : ∀ place ∈ p.outputs, Below dir place := by
  intro place hm
  rcases List.mem_append.mp hm with hm | hm
  · obtain ⟨data, hd, rfl⟩ := List.mem_map.mp hm
    obtain ⟨s, hs, hd⟩ := List.mem_filterMap.mp hd
    obtain ⟨name, hs⟩ := SortedMap.mem_values_iff.mp hs
    exact h.data hs hd
  · obtain ⟨t, ht, hm⟩ := List.mem_flatMap.mp hm
    exact h.reports t ht place hm

/-- New tasks have to report below the directory. -/
theorem grows (h : p.Inside dir) (hg : p.Grows q ts)
    (hts : ∀ t ∈ ts, ∀ place ∈ t.locations, Below dir place) : q.Inside dir where
  closed := h.closed
  buildDir := hg.buildDir.trans h.buildDir
  suite := by rw [hg.suites]; exact h.suite
  data := by rw [hg.suites]; exact h.data
  reports t ht := by
    rw [hg.tasks] at ht
    rcases List.mem_append.mp ht with ht | ht
    · exact h.reports t ht
    · exact hts t ht
  coverage := by rw [hg.coverage]; exact h.coverage

/-- Changing tasks does not lead out of the directory as long as their outlines stay. -/
theorem mapTasks (h : p.Inside dir) {f : Task → Task} (hf : ∀ t, (f t).outline? = t.outline?) :
    Inside dir { p with tasks := p.tasks.mapTasks f } where
  closed := h.closed
  buildDir := h.buildDir
  suite := h.suite
  data := h.data
  reports t ht := by
    obtain ⟨u, hu, rfl⟩ := List.mem_map.mp ht
    have hkeep : (TaskGraph.keepName f u).outline? = u.outline? := hf u
    rw [Task.locations_congr hkeep]
    exact h.reports u hu
  coverage := h.coverage

/-! ### Making projects -/

/-- A fresh project is below its build directory, unless that ends in a slash. -/
theorem fresh (path : String) (hd : isOpen dir = false) : (Project.fresh path dir).Inside dir where
  closed := hd
  buildDir := rfl
  suite {name s} h := by
    rw [Project.fresh, SortedMap.find?_insert] at h
    split at h
    · rename_i hname
      rw [hname]
      decide
    · cases h
  data {name s data} h hdata := by
    rw [Project.fresh, SortedMap.find?_insert] at h
    split at h
    · obtain rfl := Option.some.inj h
      obtain rfl := Option.some.inj hdata
      have hfolder : Below dir (join dir "jacoco") := below_join_self hd (by decide)
      have hfile : isAbsolute (defaultTestTask ++ ".exec") = false := by decide
      exact hfolder.join hfile
    · cases h
  reports t ht := by
    rcases List.mem_pair.mp ht with rfl | rfl <;> exact List.forall_mem_nil _
  coverage extension h := by cases h

theorem requestUberJar (h : p.Inside dir) (uberJar : Bool) : Inside dir { p with uberJar } :=
  ⟨h.closed, h.buildDir, h.suite, h.data, h.reports, h.coverage⟩

/-- A capability does not lead out of the directory. -/
theorem apply (h : p.Inside dir) (c : Capability) : (p.apply c).Inside dir where
  closed := h.closed
  buildDir := h.buildDir
  suite := h.suite
  data := h.data
  reports t ht := by
    obtain ⟨ts, hts, hcompile, _⟩ := p.tasks_apply c
    rw [hts] at ht
    rcases List.mem_append.mp ht with ht | ht
    · exact h.reports t ht
    · rw [Task.locations, (hcompile t ht).1]
      exact List.forall_mem_nil _
  coverage := h.coverage

/-- A suite does not lead out of the directory if its name and its file do not start at the root. -/
theorem addSuite (h : p.Inside dir) {name : String} {file sourceSet : Option String}
    (hn : isAbsolute name = false) (hf : ∀ f ∈ file, Below dir f)
    (hq : p.addSuite name file sourceSet = .ok q) : q.Inside dir := by
  have hd : (Declaration.mk name file sourceSet).Declares p q :=
    declares_of_declare (declare_eq_some_iff.mpr hq)
  refine {
    closed := h.closed
    buildDir := by rw [hd.rest]; exact h.buildDir
    suite := fun {other s} hs => ?suite
    data := fun {other s data} hs hdata => ?data
    reports := fun t ht => ?reports
    coverage := by rw [hd.rest]; exact h.coverage }
  case suite =>
    rw [hd.suites, SortedMap.find?_insert] at hs
    split at hs
    · rename_i he
      rwa [he]
    · exact h.suite hs
  case data =>
    rw [hd.suites, SortedMap.find?_insert] at hs
    split at hs
    · obtain rfl := Option.some.inj hs
      obtain ⟨f, hfile, rfl⟩ := Option.map_eq_some_iff.mp hdata
      exact hf f hfile
    · exact h.data hs hdata
  case reports =>
    have htask : q.task? t.name = some t := TaskGraph.get?_eq_some_iff.mpr ⟨ht, rfl⟩
    by_cases he : t.name = name
    · rw [he] at htask
      obtain rfl := Option.some.inj (htask.symm.trans hd.task?_self)
      exact List.forall_mem_nil _
    · rw [hd.task?_of_ne he] at htask
      exact h.reports t (TaskGraph.get?_eq_some_iff.mp htask).1

end Inside

end Project

/-- Whether neither the suites of a project nor their files are given by absolute paths. -/
def Settings.Project.Relative (spec : Settings.Project) : Prop :=
  ∀ suite ∈ spec.suites, isAbsolute suite.name = false ∧
    ∀ file ∈ suite.executionData, isAbsolute file = false

namespace Project.Inside

variable {p q : Project} {dir : String}

/-- What settings make stays below the build directory. -/
theorem of_buildProject {c : Context} {spec : Settings.Project} (hs : spec.Relative)
    (hd : isOpen (Workspace.buildDir c spec) = false) (h : Workspace.buildProject c spec = .ok p) :
    p.Inside (Workspace.buildDir c spec) := by
  refine Workspace.of_buildProject ((fresh spec.path hd).requestUberJar spec.uberJar)
    (fun _ capability _ hq => hq.apply capability) (fun suite hm q r hq hr => ?_) h
  obtain ⟨hn, hf⟩ := hs suite hm
  refine hq.addSuite hn (fun path hpath => ?_) hr
  obtain ⟨file, hfile, rfl⟩ := Option.map_eq_some_iff.mp hpath
  rw [hq.buildDir]
  exact below_join_self hq.closed (hf file hfile)

/-! ### Passes -/

variable {pass : CoveragePass} {a b : Project}

/-- Enabling coverage does not lead out if the reports are put below the directory. -/
theorem enableCoverage (h : p.Inside dir) {root : String} (hr : Below dir root)
    (hq : p.enableCoverage root = .ok q) : q.Inside dir := by
  obtain ⟨m, hg, rfl⟩ := enableCoverage_ok hq
  have hm : m.Inside dir := by
    refine h.grows hg fun t ht => ?_
    unfold enabledTasks at ht
    split at ht
    · cases ht
    · obtain ⟨u, hu, rfl⟩ := List.mem_map.mp ht
      rw [locations_conform]
      exact below_hostTasks hr u (List.mem_of_mem_filter hu)
  split
  · exact hm
  · refine ⟨hm.closed, hm.buildDir, hm.suite, hm.data, hm.reports, fun extension he => ?_⟩
    obtain rfl := Option.some.inj he
    exact hr

/-- Activation does not lead out if the pass puts reports into a relative directory. -/
theorem activate (h : p.Inside dir) (hr : isAbsolute pass.reportsDir = false)
    (ha : pass.activate p = .ok a) : a.Inside dir := by
  obtain ⟨version, m, _, hm, rfl⟩ := CoveragePass.activate_ok ha
  rw [h.buildDir] at hm
  have hm := h.enableCoverage (below_join_self h.closed hr) hm
  have hmap := (hm.apply .coverageAggregation).mapTasks
    (Task.outline?_followConvention · pass.convention)
  refine ⟨hmap.closed, hmap.buildDir, hmap.suite, hmap.data, hmap.reports, fun extension he => ?_⟩
  obtain ⟨before, hbefore, rfl⟩ := Option.map_eq_some_iff.mp he
  exact hm.coverage before hbefore

/-- A pass reports below the directory, in the project's own place for reports or in that of the pass. -/
theorem reportsRoot (h : p.Inside dir) (hr : isAbsolute pass.reportsDir = false) :
    Below dir (pass.reportsRoot p) := by
  unfold CoveragePass.reportsRoot
  split
  · rename_i extension he
    exact h.coverage extension he
  · rw [h.buildDir]
    exact below_join_self h.closed hr

/-- The reports of the other suites go below the directory of reports as well. -/
theorem below_suiteTask (h : p.Inside dir) (hr : isAbsolute pass.reportsDir = false) {suites : List String}
    {t : Task} (ht : pass.IsSuiteTask p suites t) : ∀ place ∈ t.locations, Below dir place := by
  obtain ⟨suite, _, _, inputs, hi, ht⟩ := ht
  obtain ⟨u, hu, rfl⟩ := List.mem_map.mp ht
  rw [locations_conform]
  intro place hm
  obtain ⟨s, data, hs, _, _, rfl⟩ := CoveragePass.suiteInputs_ok hi
  rcases List.mem_pair.mp hu with rfl | rfl
  · rw [Task.locations, CoveragePass.reportTask] at hm
    simp only [Report.locations_follow] at hm
    exact Report.below_of_mem_locations _ (h.reportsRoot hr) (h.suite hs)
      (isAbsolute_append (by decide) (h.suite hs)) hm
  · cases hm

/-- A pass leaves a project below its build directory, however far it gets. -/
theorem configure (h : p.Inside dir) (hr : isAbsolute pass.reportsDir = false) :
    (pass.configure p).1.Inside dir := by
  refine CoveragePass.of_configure (P := Inside dir) h (h.activate hr) (fun {a} ts ha => ?_)
    (fun {b} suites hb => ?_)
  · rw [Toolchain.adjustAll_eq]
    exact ha.mapTasks (Toolchain.outline?_adjustTask _)
  · obtain ⟨ts, hg, hts, _⟩ := pass.synthesizeAll_grows suites b
    exact hb.grows hg fun t ht => hb.below_suiteTask hr (hts t ht)

end Project.Inside

/-! ## Matrix cells -/

/-- A secondary value is a part of the name that it is read from. -/
theorem MatrixCell.secondary_of_ofName {name defaultPrimary : String} {cell : MatrixCell}
    (h : ofName name defaultPrimary = .ok cell) : ∀ c ∈ cell.secondary.toList, c ∈ name.toList := by
  obtain ⟨written, hs⟩ := ofName_ok h
  intro c hc
  have hsegment : c ∈ written ++ '_' :: cell.secondary.toList :=
    List.mem_append_right written (List.mem_cons_of_mem _ hc)
  rcases hs.segment.cut with hcut | ⟨start, hcut⟩
  · rwa [hcut]
  · rw [hcut]
    exact List.mem_append_right start (List.mem_cons_of_mem _ hsegment)

namespace Workspace

variable {c : Context} {specs : List Settings.Project} {projects : List Project}
  {spec s t : Settings.Project} {cell other : MatrixCell} {p q : Project} {dir dir' : String}

/-- In a path without slashes the secondary value of a matrix cell names one directory. -/
theorem isName_of_matrixCell? {settings : Settings.Matrix} (hp : '/' ∉ spec.path.toList)
    (h : matrixCell? spec.path settings = some cell) : IsName cell.secondary := by
  obtain ⟨hfound, hdigit⟩ := ofName_of_matrixCell? h
  refine ⟨fun hm => hp (MatrixCell.secondary_of_ofName hfound _ hm), fun e => ?_, fun e => ?_⟩
  · rw [e] at hdigit
    cases hdigit
  · rw [e] at hdigit
    exact absurd hdigit (by decide)

/-- A matrix cell builds into the directory of its secondary value. -/
theorem buildDir_of_matrixCell? (hd : spec.buildDir = some dir)
    (hc : matrixCell? spec.path c.settings.matrix = some cell) (hn : IsName cell.secondary) :
    buildDir c spec = opened (join c.root dir) ++ cell.secondary := by
  rw [buildDir, hd, hc]
  exact join_eq hn.isAbsolute _

/-- Each project of a workspace is made from the settings in its place. -/
theorem buildProject_of_mem_zip (h : buildEach c specs = .ok projects)
    (hm : (spec, p) ∈ specs.zip projects) : buildProject c spec = .ok p := by
  induction specs generalizing projects with
  | nil => cases hm
  | cons first specs ih =>
    rw [buildEach] at h
    split at h
    · cases h
    · rename_i m hfirst
      obtain ⟨rest, hrest, rfl⟩ := except_map_ok h
      rw [List.zip_cons_cons] at hm
      rcases List.mem_cons.mp hm with heq | hm
      · obtain ⟨rfl, rfl⟩ := Prod.mk.inj heq
        exact hfirst
      · exact ih hrest hm

/-- The output of a matrix cell goes below the directory of its secondary value. -/
theorem outputs_of_matrixCell? (hs : spec.Relative) (hp : '/' ∉ spec.path.toList)
    (hd : spec.buildDir = some dir) (hc : matrixCell? spec.path c.settings.matrix = some cell)
    (h : buildProject c spec = .ok p) {pass : CoveragePass} (hr : isAbsolute pass.reportsDir = false) :
    ∀ place ∈ (pass.configure p).1.outputs, Below (opened (join c.root dir) ++ cell.secondary) place := by
  have hn := isName_of_matrixCell? hp hc
  have hdir := buildDir_of_matrixCell? hd hc hn
  have hclosed : isOpen (buildDir c spec) = false := by
    rw [hdir]
    exact hn.isOpen_append _
  rw [← hdir]
  exact ((Project.Inside.of_buildProject hs hclosed h).configure hr).outputs

/-- Projects of a workspace that build into one directory, for matrix cells with different secondary
values, share no output after a pass, whether it gets through or not: no place that one of them writes to
has the same components as one that the other writes to. Nothing but the suites, their files and the
directory of reports can lead out of a build directory. -/
theorem matrix_cells_share_no_output {pass : CoveragePass} (h : buildProjects c = .ok projects)
    (hsp : (s, p) ∈ c.settings.projects.zip projects) (htq : (t, q) ∈ c.settings.projects.zip projects)
    (hsdir : s.buildDir = some dir) (htdir : t.buildDir = some dir')
    (hdir : components dir = components dir')
    (hspath : '/' ∉ s.path.toList) (htpath : '/' ∉ t.path.toList)
    (hscell : matrixCell? s.path c.settings.matrix = some cell)
    (htcell : matrixCell? t.path c.settings.matrix = some other)
    (hne : cell.secondary ≠ other.secondary) (hs : s.Relative) (ht : t.Relative)
    (hr : isAbsolute pass.reportsDir = false) :
    ∀ x ∈ (pass.configure p).1.outputs, ∀ y ∈ (pass.configure q).1.outputs,
      components x ≠ components y := by
  intro x hx y hy
  have hx := outputs_of_matrixCell? hs hspath hsdir hscell (buildProject_of_mem_zip h hsp) hr x hx
  have hy := outputs_of_matrixCell? ht htpath htdir htcell (buildProject_of_mem_zip h htq) hr y hy
  exact components_ne_of_below (names_join_congr hdir c.root) (isName_of_matrixCell? hspath hscell)
    (isName_of_matrixCell? htpath htcell) hne hx hy

/-- A module that is built for a runtime line, with a suite. -/
def lineSample (secondary dir : String) : Settings.Project where
  path := ":nessie-spark-3.3_" ++ secondary
  buildDir := some dir
  suites := [{ name := "slow", executionData := some "slow.exec" }]

/-- Two lines in one directory, which the second one spells with a slash at the end. -/
def linesSample : Context :=
  .new "/work" { projects := [lineSample "2.12" "out", lineSample "2.13" "out/"] } {} .default

/-- Told to build into one directory, the two lines write side by side. -/
theorem linesSample_share_no_output :
    ∃ p q, buildProjects linesSample = .ok [p, q] ∧
      (CoveragePass.sample.configure p).1.outputs = [
        "/work/out/2.12/jacoco/test.exec", "/work/out/2.12/slow.exec",
        "/work/out/2.12/reports/test/html", "/work/out/2.12/reports/test/coverage-report.xml",
        "/work/out/2.12/reports/test/coverage-report.csv", "/work/out/2.12/reports/slow/html",
        "/work/out/2.12/reports/slow/coverage-report-slow.xml",
        "/work/out/2.12/reports/slow/coverage-report-slow.csv"] ∧
      ∀ x ∈ (CoveragePass.sample.configure p).1.outputs,
        ∀ y ∈ (CoveragePass.sample.configure q).1.outputs, components x ≠ components y := by
  have hcount : (buildProjects linesSample).map (·.length) = .ok 2 := by decide
  have hfirst : (buildProjects linesSample).map
      (·.head?.map fun p => (CoveragePass.sample.configure p).1.outputs) = .ok (some [
        "/work/out/2.12/jacoco/test.exec", "/work/out/2.12/slow.exec",
        "/work/out/2.12/reports/test/html", "/work/out/2.12/reports/test/coverage-report.xml",
        "/work/out/2.12/reports/test/coverage-report.csv", "/work/out/2.12/reports/slow/html",
        "/work/out/2.12/reports/slow/coverage-report-slow.xml",
        "/work/out/2.12/reports/slow/coverage-report-slow.csv"]) := by decide
  obtain ⟨projects, h, hlength⟩ := except_map_ok hcount
  obtain ⟨p, q, rfl⟩ := List.length_eq_two.mp hlength.symm
  rw [h] at hfirst
  have hzip : linesSample.settings.projects.zip [p, q] =
      [(lineSample "2.12" "out", p), (lineSample "2.13" "out/", q)] := rfl
  have hcell : matrixCell? (lineSample "2.12" "out").path linesSample.settings.matrix =
      some ⟨"3.3", "2.12"⟩ := by decide
  have hother : matrixCell? (lineSample "2.13" "out/").path linesSample.settings.matrix =
      some ⟨"3.3", "2.13"⟩ := by decide
  have hrelative : ∀ secondary dir, (lineSample secondary dir).Relative := by
    intro secondary dir suite hm
    obtain rfl := List.mem_singleton.mp hm
    exact ⟨by decide, fun file hf => by obtain rfl := Option.some.inj hf; decide⟩
  have hsame : components "out" = components "out/" := by decide
  refine ⟨p, q, h, Option.some.inj (Except.ok.inj hfirst), ?_⟩
  exact matrix_cells_share_no_output h (hzip ▸ List.mem_cons_self ..)
    (hzip ▸ List.mem_cons_of_mem _ (List.mem_cons_self ..)) rfl rfl hsame (by decide) (by decide) hcell
    hother (by decide) (hrelative _ _) (hrelative _ _) (by decide)

end Workspace

end BuildGraph
