import BuildGraph.Proofs.Registration

/-!
# Enabling coverage

Activation puts the default suite's coverage tasks behind the others, as far as their names are free,
and disturbs nothing else. It fails only for want of the agent's version or because another task has
such a name, and then there is no project that it could have changed.
-/

namespace BuildGraph

namespace Project

/-! ## Coverage tasks of the default suite -/

/-- The names of the default suite's coverage tasks. -/
def hostTaskNames : List String := [defaultReportTask, defaultVerificationTask]

/-- The default suite's report task for given data. -/
def hostReport (reportsDir : String) (data : ExecutionData) : Task where
  name := defaultReportTask
  action := .report (.below ⟨defaultSuite, data, mainSourceSet⟩ reportsDir defaultTestTask
    defaultReportTask)
  group := some verificationGroup

/-- The default suite's verification task for given data. -/
def hostVerification (data : ExecutionData) : Task where
  name := defaultVerificationTask
  action := .verification ⟨defaultSuite, data, mainSourceSet⟩
  group := some verificationGroup

/-- The default suite's coverage tasks, if it has data. -/
def hostTasks (p : Project) (reportsDir : String) : List Task :=
  match (p.suites.find? defaultSuite).bind (·.executionData) with
  | some data => [hostReport reportsDir data, hostVerification data]
  | none => []

/-- Whether the default suite has its coverage tasks. -/
def HoldsHostTasks (p : Project) : Prop :=
  p.HoldsPair defaultReportTask defaultVerificationTask defaultSuite

variable {p q : Project} {reportsDir : String} {data : ExecutionData} {fault : ProjectFault}

/-- The two coverage tasks of the default suite do not compete for one name. -/
theorem hostReport_name_ne (reportsDir : String) (data : ExecutionData) :
    (hostReport reportsDir data).name ≠ (hostVerification data).name := by
  simp [hostReport, hostVerification, defaultReportTask, defaultVerificationTask]

/-- The tasks of the default suite are registered as those of any pair: both names are checked before the
first of them is taken. -/
theorem registerDefaultCoverage_eq (p : Project) (reportsDir : String) (data : ExecutionData) :
    p.registerDefaultCoverage reportsDir data = (do
      let has ← p.checkPair defaultReportTask defaultVerificationTask defaultSuite
      p.registerPair has (hostReport reportsDir data) (hostVerification data)) := by
  simp only [checkPair, registerPair, bind_assoc, pure_bind]
  rfl

/-- Once the names are checked, the default suite's coverage tasks are registered as far as they are
absent. -/
theorem registerPair_host {has : Bool × Bool} (reportsDir : String) (data : ExecutionData)
    (hc : p.checkPair defaultReportTask defaultVerificationTask defaultSuite = .ok has) :
    ∃ q, p.registerPair has (hostReport reportsDir data) (hostVerification data) = .ok q ∧
      p.Grows q (p.absent [hostReport reportsDir data, hostVerification data]) ∧ q.HoldsHostTasks :=
  registerPair_of_checked (r := hostReport reportsDir data) (v := hostVerification data) hc rfl rfl
    (hostReport_name_ne reportsDir data)

/-- Registering the tasks of the default suite adds those that are absent, and leaves the suite
with both. -/
theorem registerDefaultCoverage_ok (h : p.registerDefaultCoverage reportsDir data = .ok q) :
    p.Grows q (p.absent [hostReport reportsDir data, hostVerification data]) ∧ q.HoldsHostTasks := by
  rw [registerDefaultCoverage_eq] at h
  obtain ⟨has, hc, h⟩ := except_bind_ok h
  obtain ⟨m, hm, hg⟩ := registerPair_host reportsDir data hc
  obtain rfl : m = q := Except.ok.inj (hm.symm.trans h)
  exact hg

/-- Nothing is in the way of the default suite's coverage tasks but another holder of their names. -/
theorem registerDefaultCoverage_error (h : p.registerDefaultCoverage reportsDir data = .error fault) :
    p.checkPair defaultReportTask defaultVerificationTask defaultSuite = .error fault := by
  rw [registerDefaultCoverage_eq] at h
  rcases except_bind_error h with hfault | ⟨has, hc, hrefused⟩
  · exact hfault
  · obtain ⟨m, hm, _⟩ := registerPair_host reportsDir data hc
    cases hm.symm.trans hrefused

/-! ## Enabling coverage -/

/-- The tasks that enabling coverage registers. -/
def enabledTasks (p : Project) (reportsDir : String) : List Task :=
  if p.has .coverage then [] else p.absent (p.hostTasks reportsDir)

/-- No data, no tasks; otherwise there are two, report first. -/
theorem names_hostTasks_sublist (p : Project) (reportsDir : String) :
    ((p.hostTasks reportsDir).map (·.name)).Sublist hostTaskNames := by
  unfold hostTasks
  split
  · exact List.Sublist.refl _
  · exact List.nil_sublist _

/-- Enabling coverage registers nothing but coverage tasks of the default suite. -/
theorem names_enabledTasks_sublist (p : Project) (reportsDir : String) :
    ((p.enabledTasks reportsDir).map (·.name)).Sublist hostTaskNames := by
  unfold enabledTasks
  split
  · exact List.nil_sublist _
  · rw [names_absent]
    exact List.filter_sublist.trans (p.names_hostTasks_sublist reportsDir)

/-- What enabling coverage registers has free names. -/
theorem contains_of_mem_enabledTasks {t : Task} (ht : t ∈ p.enabledTasks reportsDir) :
    p.tasks.contains t.name = false := by
  unfold enabledTasks at ht
  split at ht
  · cases ht
  · have hm := List.mem_map_of_mem (f := (·.name)) ht
    rw [names_absent] at hm
    simpa using List.of_mem_filter hm

/-- Adding a capability grants that one and takes none away. -/
theorem has_add (p : Project) (c d : Capability) :
    ({ p with capabilities := p.capabilities.add d } : Project).has c = (decide (c = d) || p.has c) :=
  SortedSet.contains_add p.capabilities d c

/-- A project whose default suite has its coverage tasks, if there is data for them. -/
def registerHostTasks (p : Project) (reportsDir : String) : Except ProjectFault Project :=
  match (p.suites.find? defaultSuite).bind (·.executionData) with
  | some data => p.registerDefaultCoverage reportsDir data
  | none => .ok p

/-- A project with the capability and the settings. -/
def withCoverage (p : Project) (reportsDir : String) : Project :=
  { p with capabilities := p.capabilities.add .coverage, coverage := some ⟨none, reportsDir⟩ }

/-- Enabling coverage is a no-op for a project that has the capability, whoever granted it. -/
theorem enableCoverage_of_has (h : p.has .coverage) : p.enableCoverage reportsDir = .ok p := by
  rw [enableCoverage, if_pos h]

/-- A project without the capability gets the default suite's tasks first, and the settings only if those
could be registered. -/
theorem enableCoverage_of_not_has (h : p.has .coverage = false) :
    p.enableCoverage reportsDir = (p.registerHostTasks reportsDir).map (·.withCoverage reportsDir) := by
  rw [enableCoverage, if_neg (by simp [h]), registerHostTasks]
  cases (p.suites.find? defaultSuite).bind (·.executionData) with
  | none => rfl
  | some data => cases hd : p.registerDefaultCoverage reportsDir data <;> simp [hd] <;> rfl

/-- With data for the default suite both of its coverage tasks are due. -/
theorem registerHostTasks_of_data
    (hd : (p.suites.find? defaultSuite).bind (·.executionData) = some data) :
    p.registerHostTasks reportsDir = p.registerDefaultCoverage reportsDir data := by
  rw [registerHostTasks, hd]

/-- The project grows by the tasks of the default suite whose names are free, and by nothing if there is
no data. -/
theorem registerHostTasks_ok (h : p.registerHostTasks reportsDir = .ok q) :
    p.Grows q (p.absent (p.hostTasks reportsDir)) := by
  unfold hostTasks
  cases hd : (p.suites.find? defaultSuite).bind (·.executionData) with
  | none =>
    rw [registerHostTasks, hd] at h
    obtain rfl := Except.ok.inj h
    exact Grows.refl p
  | some data =>
    rw [registerHostTasks_of_data hd] at h
    exact (registerDefaultCoverage_ok h).1

/-- Registering the tasks of the default suite fails at the check of their names or not at all. -/
theorem registerHostTasks_error (h : p.registerHostTasks reportsDir = .error fault) :
    p.checkPair defaultReportTask defaultVerificationTask defaultSuite = .error fault := by
  unfold registerHostTasks at h
  split at h
  · exact registerDefaultCoverage_error h
  · cases h

/-- A project with the capability stays as it is; any other grows by the absent tasks, and gets the
capability and the settings. -/
theorem enableCoverage_ok (h : p.enableCoverage reportsDir = .ok q) :
    ∃ m, p.Grows m (p.enabledTasks reportsDir) ∧
      q = if p.has .coverage then m else m.withCoverage reportsDir := by
  unfold enabledTasks
  cases hc : p.has .coverage with
  | true =>
    rw [enableCoverage_of_has hc] at h
    exact ⟨p, Grows.refl p, (Except.ok.inj h).symm⟩
  | false =>
    rw [enableCoverage_of_not_has hc] at h
    obtain ⟨m, hm, rfl⟩ := except_map_ok h
    exact ⟨m, registerHostTasks_ok hm, rfl⟩

/-- Enabling coverage anew leaves the default suite with its coverage tasks, if it has data. -/
theorem enableCoverage_holds (h : p.enableCoverage reportsDir = .ok q) (hc : p.has .coverage = false)
    (hd : (p.suites.find? defaultSuite).bind (·.executionData) = some data) : q.HoldsHostTasks := by
  rw [enableCoverage_of_not_has hc, registerHostTasks_of_data hd] at h
  obtain ⟨m, hm, rfl⟩ := except_map_ok h
  have hh := (registerDefaultCoverage_ok hm).2
  exact ⟨hh.report, hh.verification⟩

/-- What enabling coverage registers is among the default suite's coverage tasks afterwards. -/
theorem holdsHostTasks_of_enabledTasks (h : p.enableCoverage reportsDir = .ok q)
    (hne : p.enabledTasks reportsDir ≠ []) : q.HoldsHostTasks := by
  cases hc : p.has .coverage with
  | true => simp [enabledTasks, hc] at hne
  | false =>
    cases hd : (p.suites.find? defaultSuite).bind (·.executionData) with
    | none => simp [enabledTasks, hc, hostTasks, hd, absent] at hne
    | some data => exact enableCoverage_holds h hc hd

/-- Enabling coverage fails at a check or not at all. -/
theorem checkPair_of_enableCoverage_error (h : p.enableCoverage reportsDir = .error fault) :
    p.checkPair defaultReportTask defaultVerificationTask defaultSuite = .error fault := by
  cases hc : p.has .coverage with
  | true =>
    rw [enableCoverage_of_has hc] at h
    cases h
  | false =>
    rw [enableCoverage_of_not_has hc] at h
    exact registerHostTasks_error (except_map_error h)

/-- Enabling coverage fails only because another task holds a name of the default suite's coverage tasks,
and the fault names it. -/
theorem enableCoverage_error (h : p.enableCoverage reportsDir = .error fault) :
    ∃ name ∈ hostTaskNames, fault = .duplicateTask p.path name ∧ p.tasks.contains name :=
  checkPair_error (checkPair_of_enableCoverage_error h)

/-- Enabling coverage leaves the suites and all earlier coverage tasks alone. -/
theorem continues_enableCoverage (h : p.enableCoverage reportsDir = .ok q) : p.Continues q := by
  obtain ⟨m, hg, rfl⟩ := enableCoverage_ok h
  have hm := Continues.of_grows hg
  split
  · exact hm
  · exact ⟨hm.path, hm.buildDir, hm.suites, hm.sourceSets,
      fun t => (has_add m _ _).trans (by simp [hm.has_toolchain t]), hm.outline⟩

end Project

/-! ## Activation -/

namespace CoveragePass

open Project

variable {pass : CoveragePass} {p a : Project}

/-- The project that is left to finish once coverage is enabled. -/
def finishActivation (pass : CoveragePass) (p : Project) (version : String) : Project :=
  ((p.apply .coverageAggregation).configureReports pass.convention).pinToolVersion version

/-- Activation needs the agent's version from the catalog first, and then a project that takes coverage. -/
theorem activate_ok (h : pass.activate p = .ok a) :
    ∃ version m, pass.catalog.version pass.toolVersionKey = .ok version ∧
      p.enableCoverage (Path.join p.buildDir pass.reportsDir) = .ok m ∧
      a = pass.finishActivation m version := by
  obtain ⟨version, hv, h⟩ := except_bind_ok h
  obtain ⟨m, hm, h⟩ := except_bind_ok h
  exact ⟨version, m, except_mapError_ok hv, except_mapError_ok hm, (Except.ok.inj h).symm⟩

/-- With the version at hand, activation succeeds if enabling coverage does. -/
theorem activate_of_enableCoverage {version : String} {m : Project}
    (hv : pass.catalog.version pass.toolVersionKey = .ok version)
    (hm : p.enableCoverage (Path.join p.buildDir pass.reportsDir) = .ok m) :
    pass.activate p = .ok (pass.finishActivation m version) := by
  rw [activate, hv, hm]
  rfl

/-- Activation fails for want of the agent's version, or because a name of a coverage task of the
default suite is taken. -/
theorem activate_error {fault : CoverageFault} (h : pass.activate p = .error fault) :
    (∃ why, fault = .catalog why) ∨
      ∃ name ∈ hostTaskNames, fault = .project (.duplicateTask p.path name) ∧ p.tasks.contains name := by
  rcases except_bind_error h with hv | ⟨version, _, h⟩
  · obtain ⟨why, _, rfl⟩ := except_mapError_error hv
    exact Or.inl ⟨why, rfl⟩
  rcases except_bind_error h with hm | ⟨m, _, h⟩
  · obtain ⟨why, hw, rfl⟩ := except_mapError_error hm
    obtain ⟨name, hn, rfl, hc⟩ := enableCoverage_error hw
    exact Or.inr ⟨name, hn, rfl, hc⟩
  · cases h

/-- Finishing an activation changes settings, and of the tasks only which reports are required. -/
theorem continues_finishActivation (pass : CoveragePass) (p : Project) (version : String) :
    p.Continues (pass.finishActivation p version) := by
  have hc := Continues.of_mapTasks p (f := (·.followConvention pass.convention))
    (Task.outline?_followConvention · pass.convention)
  exact ⟨rfl, rfl, rfl, rfl, fun t => (has_add p _ _).trans (by simp), hc.outline⟩

/-- Activation leaves the suites and all earlier coverage tasks alone. -/
theorem continues_activate (h : pass.activate p = .ok a) : p.Continues a := by
  obtain ⟨version, m, _, hm, rfl⟩ := activate_ok h
  exact (continues_enableCoverage hm).trans (continues_finishActivation pass m version)

/-- An activated project follows the convention of the pass for whatever is registered later. -/
theorem convention_of_activate (h : pass.activate p = .ok a) : a.convention = some pass.convention := by
  obtain ⟨version, m, _, _, rfl⟩ := activate_ok h
  rfl

/-- If activation registers anything, the default suite has both of its coverage tasks afterwards. -/
theorem activate_holds (h : pass.activate p = .ok a)
    (hne : p.enabledTasks (Path.join p.buildDir pass.reportsDir) ≠ []) : a.HoldsHostTasks := by
  obtain ⟨version, m, _, hm, rfl⟩ := activate_ok h
  exact (holdsHostTasks_of_enabledTasks hm hne).continues (pass.continues_finishActivation m version)

/-- Activation puts the absent coverage tasks of the default suite behind the others. -/
theorem names_activate (h : pass.activate p = .ok a) :
    a.tasks.names = p.tasks.names ++
      (p.enabledTasks (Path.join p.buildDir pass.reportsDir)).map (·.name) := by
  obtain ⟨version, m, _, hm, rfl⟩ := activate_ok h
  obtain ⟨n, hg, rfl⟩ := enableCoverage_ok hm
  refine (TaskGraph.names_mapTasks _ _).trans ?_
  rw [← hg.names]
  split <;> rfl

end CoveragePass

end BuildGraph
