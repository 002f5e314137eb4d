import BuildGraph.CommandLine.Run
import BuildGraph.Proofs.BuildableProjects
import BuildGraph.Proofs.BuiltProject
import BuildGraph.Proofs.ModuleGroups
import BuildGraph.Proofs.StoppedPass
import BuildGraph.Proofs.Workers

/-!
# What a check promises of coverage

A check reads what a run of coverage reads, and in a workspace build the manifest besides, if it is there.
Where it succeeds, a run of coverage gets to its pass, and from the manifest it takes nothing that the
pass goes by, so a forced split build comes to the same. What a check does not look at are the names of
the tasks that the pass creates and the data of suites; the pass may still fail on single projects there.
-/

namespace BuildGraph

/-! ## Contexts of one workspace -/

namespace Context

variable {files : Files} {root : String} {c d : Context}

/-- Whether contexts differ in nothing but where modules come from. -/
structure Alike (c d : Context) : Prop where
  root : d.root = c.root
  catalog : d.catalog = c.catalog
  coverage : d.settings.coverage = c.settings.coverage
  matrix : d.settings.matrix = c.settings.matrix
  projects : d.settings.projects = c.settings.projects

theorem Alike.refl (c : Context) : c.Alike c := ⟨rfl, rfl, rfl, rfl, rfl⟩

/-- The manifest brings nothing but the registry. -/
theorem readManifest_ok (h : c.readManifest files = .ok d) :
    Registry.load files c.manifestPath c.settings.topology = .ok d.registry ∧
      d = { c with registry := d.registry } := by
  obtain ⟨registry, hr, rfl⟩ := except_map_ok h
  exact ⟨hr, rfl⟩

/-- Whether a manifest can be read does not depend on the names of the groups. -/
theorem load_registry {path : String} {topology : Settings.Topology} {r : Registry}
    (h : Registry.load files path topology = .ok r) (topology' : Settings.Topology) :
    ∃ r', Registry.load files path topology' = .ok r' := by
  unfold Registry.load at h ⊢
  cases hp : Properties.load files path with
  | error why =>
    rw [hp] at h
    cases h
  | ok properties => exact ⟨_, rfl⟩

/-- Loading comes down to the manifest once settings and catalog are read; the switch has no part in
which files these are. -/
theorem load_eq {settings : Settings} {catalog : Catalog}
    (hs : Settings.load files (settingsPath root) = .ok settings)
    (hc : Catalog.load files (catalogPath root settings) = .ok catalog) (splitBuild : Option Bool) :
    load files root splitBuild =
      match (new root (override splitBuild settings) catalog .default).topology with
      | .inWorkspace => .ok (new root (override splitBuild settings) catalog .default)
      | .splitBuild =>
        ((new root (override splitBuild settings) catalog .default).readManifest files).mapError .manifest := by
  have hpath : catalogPath root (override splitBuild settings) = catalogPath root settings := by
    cases splitBuild <;> rfl
  rw [load, hs]
  simp only [Except.mapError, bind, Except.bind, hpath, hc]
  rfl

/-- What loading without an override has read. -/
theorem load_none_ok (h : load files root none = .ok c) :
    ∃ settings catalog, Settings.load files (settingsPath root) = .ok settings ∧
      Catalog.load files (catalogPath root settings) = .ok catalog ∧
      ((c = new root settings catalog .default ∧ c.topology = .inWorkspace) ∨
        (new root settings catalog .default).readManifest files = .ok c) := by
  obtain ⟨settings, hs, h'⟩ := except_bind_ok h
  obtain ⟨catalog, hc, _⟩ := except_bind_ok h'
  replace hs := except_mapError_ok hs
  replace hc : Catalog.load files (catalogPath root settings) = .ok catalog := except_mapError_ok hc
  refine ⟨settings, catalog, hs, hc, ?_⟩
  rw [load_eq hs hc none] at h
  cases ht : (new root (override none settings) catalog .default).topology with
  | inWorkspace =>
    rw [ht] at h
    obtain rfl := Except.ok.inj h
    exact .inl ⟨rfl, ht⟩
  | splitBuild =>
    rw [ht] at h
    exact .inr (except_mapError_ok h)

/-- Settings that name something twice are refused when they are loaded. -/
theorem duplicate?_of_load (h : load files root none = .ok c) : c.settings.duplicate? = none := by
  obtain ⟨settings, hs, hsettings, _⟩ := load_ok h
  rw [hsettings]
  exact Settings.duplicate?_of_load hs

/-- Reading the manifest again makes no difference. -/
theorem readManifest_readManifest (h : c.readManifest files = .ok d) : d.readManifest files = .ok d := by
  obtain ⟨hr, hd⟩ := readManifest_ok h
  have hsame : Registry.load files d.manifestPath d.settings.topology = .ok d.registry := by
    rw [hd]
    exact hr
  rw [readManifest, hsame]
  rfl

/-- In a split build the manifest has been read already. -/
theorem readManifest_of_split (h : load files root none = .ok c) (ht : c.topology = .splitBuild) :
    c.readManifest files = .ok c := by
  obtain ⟨settings, catalog, _, _, ⟨_, hin⟩ | hm⟩ := load_none_ok h
  · rw [ht] at hin
    cases hin
  · exact readManifest_readManifest hm

/-- If the manifest can be read, a split build can be forced, and concerns nothing but modules. -/
theorem load_forced (h : load files root none = .ok c) (hm : c.readManifest files = .ok d) :
    ∃ e, load files root (some true) = .ok e ∧ c.Alike e := by
  obtain ⟨settings, catalog, hs, hc, hfrom⟩ := load_none_ok h
  have hbase : c = { new root settings catalog .default with registry := c.registry } := by
    rcases hfrom with ⟨rfl, _⟩ | hread
    · rfl
    · exact (readManifest_ok hread).2
  have hpath : c.manifestPath =
      (new root (override (some true) settings) catalog .default).manifestPath := by
    rw [hbase]
    rfl
  obtain ⟨r, hr⟩ := load_registry (readManifest_ok hm).1 (override (some true) settings).topology
  refine ⟨{ new root (override (some true) settings) catalog .default with registry := r }, ?_, ?_⟩
  · rw [load_eq hs hc (some true)]
    change ((Registry.load files _ (override (some true) settings).topology).map _).mapError _ = _
    rw [← hpath, hr]
    rfl
  · rw [hbase]
    exact ⟨rfl, rfl, rfl, rfl, rfl⟩

end Context

/-! ## What the projects and the pass depend on -/

namespace Workspace

variable {c d : Context}

/-- Where modules come from does not matter to the projects of a workspace. -/
theorem buildEach_of_alike (h : c.Alike d) (specs : List Settings.Project) :
    buildEach d specs = buildEach c specs := by
  have hdir : ∀ spec, buildDir d spec = buildDir c spec := by
    intro spec
    rw [buildDir, h.root, h.matrix, buildDir]
  have hproject : ∀ spec, buildProject d spec = buildProject c spec := by
    intro spec
    rw [buildProject, hdir, h.matrix, buildProject]
  induction specs with
  | nil => rfl
  | cons spec specs ih => rw [buildEach, hproject, ih, buildEach]

end Workspace

/-! ## What can go wrong in the pass -/

namespace CoveragePass

variable {pass : CoveragePass} {p : Project} {fault : CoverageFault} {version : String}

/-- Whether a fault is about names or data of the project at a path: a task has a name already, or a suite
records no data. -/
inductive Individual (path : String) : CoverageFault → Prop where
  | duplicateTask (name : String) : Individual path (.project (.duplicateTask path name))
  | incompleteSuite (suite : String) : Individual path (.project (.incompleteSuite path suite))

/-- With the agent's version in the catalog, no pass complains of the catalog. -/
theorem activate_ne_catalog (hv : pass.catalog.version pass.toolVersionKey = .ok version)
    (why : Catalog.LookupFault) : pass.activate p ≠ .error (.catalog why) := by
  intro h
  rcases except_bind_error h with hlookup | ⟨_, _, h⟩
  · rw [hv] at hlookup
    cases hlookup
  · rcases except_bind_error h with henable | ⟨_, _, h⟩
    · obtain ⟨_, _, he⟩ := except_mapError_error henable
      cases he
    · cases h

/-- With the agent's version known, a pass on a project that settings make fails only for the project's
own names and data. -/
theorem individual_of_configure (hp : Built p)
    (hv : pass.catalog.version pass.toolVersionKey = .ok version)
    (h : (pass.configure p).2 = .error fault) : Individual p.path fault := by
  cases he : pass.policy.isEligible p.path with
  | false =>
    rw [configure_of_not_isEligible he] at h
    cases h
  | true =>
    cases ha : pass.activate p with
    | error why =>
      rw [configure_of_activate_error he ha] at h
      obtain rfl := Except.error.inj h
      rcases activate_error ha with ⟨why, rfl⟩ | ⟨name, _, rfl, _⟩
      · exact absurd ha (activate_ne_catalog hv why)
      · exact .duplicateTask name
    | ok a =>
      obtain ⟨suite, why, _, _, rfl, hcon, _⟩ :=
        stoppedAt_of_activate hp.reachable.wellFormed he ha (Prod.ext rfl h)
      rcases hcon with ⟨name, _, rfl⟩ | rfl
      · exact .duplicateTask name
      · exact .incompleteSuite suite

end CoveragePass

namespace Workspace

variable {pass : CoveragePass} {projects : List Project}

/-- The report lists no failures but those for a project's own names and data. -/
theorem individual_of_mem_failed {version path : String} {fault : CoverageFault}
    (hd : (projects.map (·.path)).Nodup) (hb : ∀ p ∈ projects, Built p)
    (hv : pass.catalog.version pass.toolVersionKey = .ok version)
    (h : (path, fault) ∈ (configure pass projects).2.failed) : CoveragePass.Individual path fault := by
  rw [(accounts_configure pass hd).failed, List.mem_filterMap] at h
  obtain ⟨p, hp, hfault⟩ := h
  split at hfault
  · cases hfault
  · rename_i why hwhy
    obtain ⟨rfl, rfl⟩ := Prod.mk.inj (Option.some.inj hfault)
    exact CoveragePass.individual_of_configure (hb p hp) hv hwhy

end Workspace

namespace CommandLine

variable {c d : Context}

/-- Where modules come from has no part in the projects and the pass. -/
theorem prepare_of_alike (h : c.Alike d) : prepare d = prepare c := by
  rw [prepare, Workspace.buildProjects, h.projects, Workspace.buildEach_of_alike h, h.coverage, h.catalog]
  rfl

variable {files : Files} {root : String} {projects : List Project} {pass : CoveragePass}

/-- A command that ends well has a result. -/
theorem ofExcept_exit_eq_zero {x : Except Fault Result} (h : (ofExcept x).exit = 0) :
    ∃ r, x = .ok r ∧ ofExcept x = r := by
  cases x with
  | error fault => cases h
  | ok r => exact ⟨r, rfl, rfl⟩

/-- A command goes on only in a directory that has settings, and loads them as the command line asks. -/
theorem loadContext_ok {splitBuild : Bool} (h : loadContext files root splitBuild = .ok c) :
    files.has (Context.settingsPath root) ∧
      Context.load files root (if splitBuild then some true else none) = .ok c := by
  unfold loadContext at h
  split at h
  · rename_i hhas
    exact ⟨hhas, except_mapError_ok h⟩
  · cases h

/-- The check of the manifest concerns nothing but modules, and reads the manifest if it is there. -/
theorem checkManifest_ok (h : checkManifest files c = .ok d) :
    c.Alike d ∧ (c.topology = .inWorkspace → files.has c.manifestPath → c.readManifest files = .ok d) := by
  unfold checkManifest at h
  split at h
  · have hm := except_mapError_ok h
    refine ⟨?_, fun _ _ => hm⟩
    rw [(Context.readManifest_ok hm).2]
    exact ⟨rfl, rfl, rfl, rfl, rfl⟩
  · rename_i hnot
    obtain rfl := Except.ok.inj h
    exact ⟨.refl _, fun ht hhas => absurd ⟨ht, hhas⟩ hnot⟩

/-- After a check a split build can be forced if the manifest is there. -/
theorem loadContext_of_checkManifest (h : loadContext files root false = .ok c)
    (hm : checkManifest files c = .ok d) {splitBuild : Bool}
    (hhas : splitBuild = true → files.has c.manifestPath) :
    ∃ e, loadContext files root splitBuild = .ok e ∧ c.Alike e := by
  cases splitBuild with
  | false => exact ⟨c, h, .refl c⟩
  | true =>
    obtain ⟨hsettings, hload⟩ := loadContext_ok h
    have hread : ∃ d, c.readManifest files = .ok d := by
      -- A split build has read the manifest when it was loaded, a workspace build when it was checked.
      cases ht : c.topology with
      | inWorkspace => exact ⟨d, (checkManifest_ok hm).2 ht (hhas rfl)⟩
      | splitBuild => exact ⟨c, Context.readManifest_of_split hload ht⟩
    obtain ⟨d, hd⟩ := hread
    obtain ⟨e, he, halike⟩ := Context.load_forced hload hd
    refine ⟨e, ?_, halike⟩
    rw [loadContext, if_pos hsettings, if_pos rfl, he]
    rfl

/-- What a check prints. -/
def checkResult (projects eligible : Nat) (version : String) (modules : Nat) : Result :=
  { err := lines [
      "    Checked " ++ toString projects ++ " projects (" ++ toString eligible ++ " with coverage, agent "
        ++ version ++ ")",
      "    Manifest lists " ++ toString modules ++ " split-build modules"] }

/-- What a check that ends well has gone through. -/
theorem check_ok (h : (runCommand files root .check).exit = 0) :
    ∃ c d projects pass version, loadContext files root false = .ok c ∧
      checkManifest files c = .ok d ∧ prepare c = .ok (projects, pass) ∧
      c.catalog.version c.settings.coverage.toolVersionKey = .ok version ∧
      runCommand files root .check =
        checkResult projects.length (projects.countP fun p => pass.policy.isEligible p.path) version
          d.registry.members.size := by
  obtain ⟨r, hr, hrun⟩ := ofExcept_exit_eq_zero h
  obtain ⟨c, hc, hr⟩ := except_bind_ok hr
  obtain ⟨d, hd, hr⟩ := except_bind_ok hr
  obtain ⟨⟨projects, pass⟩, hp, hr⟩ := except_bind_ok hr
  obtain ⟨version, hv, hr⟩ := except_bind_ok hr
  have halike := (checkManifest_ok hd).1
  rw [halike.catalog, halike.coverage] at hv
  refine ⟨c, d, projects, pass, version, hc, hd, ?_, except_mapError_ok hv, ?_⟩
  · rw [← prepare_of_alike halike, hp]
  · exact hrun.trans (Except.ok.inj hr).symm

/-- A run of coverage that gets to the pass shows what the pass comes to. -/
theorem coverage_of_prepare (json : Bool) {splitBuild : Bool}
    (h : loadContext files root splitBuild = .ok c) (hp : prepare c = .ok (projects, pass)) :
    runCommand files root (.coverage json splitBuild) =
      showCoverage json (Workspace.configure pass projects).1 (Workspace.configure pass projects).2 := by
  simp only [runCommand, h, hp, bind, Except.bind]
  rfl

/-- A run of coverage that gets to the pass ends well exactly if the pass fails on no project. -/
theorem exit_showCoverage (json : Bool) (r : Workspace.Report) :
    (showCoverage json projects r).exit = 0 ↔ r.failed = [] := by
  unfold showCoverage Workspace.Report.isSuccess
  cases hf : r.failed <;> cases json <;> simp [Result.fail]

/-- What a prepared pass works with: the projects of the workspace, its catalog and its key. -/
theorem prepare_ok (h : prepare c = .ok (projects, pass)) :
    Workspace.buildProjects c = .ok projects ∧ pass.catalog = c.catalog ∧
      pass.toolVersionKey = c.settings.coverage.toolVersionKey := by
  obtain ⟨built, hb, h⟩ := except_bind_ok h
  obtain ⟨made, hm, h⟩ := except_bind_ok h
  obtain ⟨rfl, rfl⟩ := Prod.mk.inj (Except.ok.inj h)
  obtain ⟨_, _, hpass⟩ := except_bind_ok (except_mapError_ok hm)
  obtain rfl := Except.ok.inj hpass
  exact ⟨except_mapError_ok hb, rfl, rfl⟩

/-- If a check ends well, so does a run of coverage up to its pass, with a forced split build too if the
manifest is there. All these runs show the same projects and the same report, which the numbers of the
check count; the pass fails on single projects only, for their own names and data. -/
theorem check_sound (h : (runCommand files root .check).exit = 0) :
    ∃ c projects pass version modules, loadContext files root false = .ok c ∧
      prepare c = .ok (projects, pass) ∧
      ∃ configured report, Workspace.configure pass projects = (configured, report) ∧
        runCommand files root .check =
          checkResult (report.configured.size + report.skipped.length + report.failed.length)
            (report.configured.size + report.failed.length) version modules ∧
        (∀ path fault, (path, fault) ∈ report.failed → CoveragePass.Individual path fault) ∧
        ∀ json splitBuild, (splitBuild = true → files.has c.manifestPath) →
          (∃ d, loadContext files root splitBuild = .ok d ∧ prepare d = .ok (projects, pass)) ∧
          runCommand files root (.coverage json splitBuild) = showCoverage json configured report ∧
          ((runCommand files root (.coverage json splitBuild)).exit = 0 ↔ report.failed = []) := by
  obtain ⟨c, d, projects, pass, version, hc, hd, hp, hv, hrun⟩ := check_ok h
  obtain ⟨hbuilt, hcatalog, hkey⟩ := prepare_ok hp
  have hdup := Context.duplicate?_of_load (loadContext_ok hc).2
  have hpaths : (projects.map (·.path)).Nodup := by
    rw [Workspace.paths_of_realizes (Workspace.realizes_of_buildProjects hdup hbuilt)]
    exact (Settings.duplicate?_eq_none_iff.mp hdup).1
  obtain ⟨hall, hcovered⟩ := Workspace.counts_configure pass hpaths
  have hlookup : pass.catalog.version pass.toolVersionKey = .ok version := by
    rw [hcatalog, hkey]
    exact hv
  refine ⟨c, projects, pass, version, d.registry.members.size, hc, hp, (Workspace.configure pass projects).1,
    (Workspace.configure pass projects).2, rfl, ?_, ?_, ?_⟩
  · rw [hall, hcovered, hrun]
  · intro path fault
    exact Workspace.individual_of_mem_failed hpaths (Built.of_buildEach hbuilt) hlookup
  · intro json splitBuild hhas
    obtain ⟨e, he, halike⟩ := loadContext_of_checkManifest hc hd hhas
    have hprepare : prepare e = .ok (projects, pass) := (prepare_of_alike halike).trans hp
    have hcoverage := coverage_of_prepare json he hprepare
    refine ⟨⟨e, he, hprepare⟩, hcoverage, ?_⟩
    rw [hcoverage, exit_showCoverage]

/-- A workspace with a suite that records no data, and a project without coverage. -/
def checkedFiles : Files := Context.textFiles [
  ("work/tessera.toml",
    "[[project]]\npath = \":nessie-model\"\n[[project.suite]]\nname = \"slow\"\n"
      ++ "[[project]]\npath = \":tools\"\n"),
  ("work/gradle/libs.versions.toml", "[versions]\njacoco = \"0.8.8\"\n"),
  ("work/gradle/projects.iceberg.properties", "nessie-listed\n")]

/-- The check passes although a project will fail on its own, and every form of the coverage command
prints the same report. -/
theorem checkedFiles_same_coverage :
    (runCommand checkedFiles "work" .check).exit = 0 ∧
      ∃ configured report, report.failed ≠ [] ∧ ∀ json splitBuild,
        runCommand checkedFiles "work" (.coverage json splitBuild) =
          showCoverage json configured report := by
  have hcheck : (runCommand checkedFiles "work" .check).exit = 0 := by decide +kernel
  have hmanifest : (loadContext checkedFiles "work" false).toOption.map
      (fun c => checkedFiles.has c.manifestPath) = some true := by
    decide +kernel
  have hfails : (runCommand checkedFiles "work" (.coverage false false)).exit = 1 := by decide +kernel
  obtain ⟨c, _, _, _, _, hc, _, configured, report, _, _, _, hruns⟩ := check_sound hcheck
  rw [hc] at hmanifest
  have hhas : checkedFiles.has c.manifestPath := Option.some.inj hmanifest
  refine ⟨hcheck, configured, report, fun he => ?_, fun json splitBuild => ?_⟩
  · rw [(hruns false false (fun h => by cases h)).2.2.mpr he] at hfails
    cases hfails
  · exact (hruns json splitBuild fun _ => hhas).2.1

end CommandLine

end BuildGraph
