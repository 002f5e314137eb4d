import BuildGraph.Proofs.Reachable

/-!
# Faults that no project shows

Two faults say that a project lacks what every project has: the task that compiles a toolchain's generated
sources or the one that waits for it, and the source set whose coverage is measured. No operation takes
these away, and neither does anybody who rewrites tasks by hand, so the pass never meets either fault.

A task is registered for coverage only after both names of its pair have been checked. A name found free
stays free until its task is registered, since the other task of the pair is called otherwise. Whatever
fails has therefore failed before the first registration.
-/

namespace BuildGraph

/-- Whether a fault says that a project lacks what every project has. -/
def ProjectFault.isInternal : ProjectFault → Bool
  | .missingTask .. => true
  | .missingSourceSet .. => true
  | _ => false

namespace Project

/-! ## Tasks rewritten by hand -/

/-- A project with another task in place of the one registered as `name`. The other task is found under
the same name, whatever else it is. -/
def rewriteTask (p : Project) (name : String) (f : Task → Task) : Project :=
  { p with tasks := p.tasks.modify name f }

/-- Whether operations lead from a fresh project to this one, with tasks rewritten by hand in between. -/
inductive Attainable : Project → Prop where
  | fresh (path buildDir : String) : Attainable (Project.fresh path buildDir)
  | run {p : Project} (operation : Operation) (h : Attainable p) : Attainable (operation.run p)
  | rewrite {p : Project} (name : String) (f : Task → Task) (h : Attainable p) :
    Attainable (p.rewriteTask name f)

variable {p : Project}

/-- Operations alone lead to attainable projects; no task needs to be rewritten. -/
theorem Reachable.attainable (h : p.Reachable) : p.Attainable := by
  induction h with
  | fresh path buildDir => exact .fresh path buildDir
  | run operation _ ih => exact .run operation ih

/-- A rewritten task is found under its old name, and so are all others. -/
theorem contains_rewriteTask (p : Project) (name : String) (f : Task → Task) {other : String}
    (h : p.tasks.contains other) : (p.rewriteTask name f).tasks.contains other := by
  rw [TaskGraph.contains_iff_mem_names] at h ⊢
  rwa [rewriteTask, TaskGraph.names_modify]

/-- What every project has does not depend on what its tasks do. -/
theorem wellFormed_rewriteTask (name : String) (f : Task → Task) (hp : p.WellFormed) :
    (p.rewriteTask name f).WellFormed where
  suite_name := hp.suite_name
  default_data := hp.default_data
  main := hp.main
  classes := p.contains_rewriteTask name f hp.classes
  generated t ht := p.contains_rewriteTask name f (hp.generated t ht)

/-- Rewriting tasks by hand takes no project out of shape, for its shape is a matter of names. -/
theorem Attainable.wellFormed (h : p.Attainable) : p.WellFormed := by
  induction h with
  | fresh path buildDir => exact wellFormed_fresh path buildDir
  | run operation _ ih => exact wellFormed_run operation ih
  | rewrite name f _ ih => exact wellFormed_rewriteTask name f ih

/-! ## Checks before registrations -/

/-- Whether no registration of a pair of tasks fails after both names have been checked. -/
def RegistersPair (p : Project) (report verification : Task) (suite : String) : Prop :=
  ∀ has, p.checkPair report.name verification.name suite = .ok has →
    ∃ q, p.registerPair has report verification = .ok q

/-- The pair of the default suite is registered without a fault once its names are checked. -/
theorem registersPair_host (p : Project) (reportsDir : String) (data : ExecutionData) :
    p.RegistersPair (hostReport reportsDir data) (hostVerification data) defaultSuite := by
  intro has hc
  obtain ⟨q, hq, _⟩ := registerPair_host reportsDir data hc
  exact ⟨q, hq⟩

end Project

namespace CoveragePass

open Project

variable {pass : CoveragePass} {p : Project} {suite : String} {fault : ProjectFault}

/-- The pair of any other suite with inputs is registered without a fault once its names are checked. -/
theorem registersPair_suite (pass : CoveragePass) (p : Project) {inputs : CoverageInputs}
    (hi : suiteInputs p suite = .ok inputs) :
    p.RegistersPair (pass.reportTask inputs (pass.reportsRoot p)) (verificationTask inputs) suite := by
  obtain rfl := suite_of_suiteInputs hi
  intro has hc
  obtain ⟨q, hq, _⟩ := pass.registerPair_suite hi hc
  exact ⟨q, hq⟩

/-! ## Faults of well-formed projects -/

/-- A suite that is refused is at fault itself. -/
theorem isInternal_of_synthesize (hp : p.WellFormed) (h : pass.synthesize p suite = .error fault) :
    fault.isInternal = false := by
  obtain ⟨_, ⟨name, _, rfl⟩ | hi⟩ := synthesize_error h
  · rfl
  · rcases suiteInputs_error hi with ⟨rfl, _⟩ | ⟨rfl, _⟩ | ⟨_, hmain⟩
    · rfl
    · rfl
    · rw [hp.main] at hmain
      cases hmain

/-- Suites are processed one after the other, and none of them takes anything away. -/
theorem isInternal_of_synthesizeAll (hp : p.WellFormed) {suites : List String} {q : Project}
    (h : pass.synthesizeAll suites p = (q, .error fault)) : fault.isInternal = false := by
  obtain ⟨earlier, suite, _, _, _, he, hf⟩ := synthesizeAll_error h
  have hc := pass.continues_synthesizeAll earlier p
  rw [he] at hc
  exact isInternal_of_synthesize (hc.wellFormed hp) hf

/-- A pass that fails on a project finds everything that each project has. -/
theorem isInternal_of_configure (hp : p.WellFormed)
    (h : (pass.configure p).2 = .error (.project fault)) : fault.isInternal = false := by
  cases pass.progress p with
  | skipped hn =>
    rw [configure_of_not_isEligible hn] at h
    cases h
  | stopped why he ha =>
    rw [configure_of_activate_error he ha] at h
    obtain rfl := Except.error.inj h
    rcases activate_error ha with ⟨why, hcatalog⟩ | ⟨name, _, hproject, _⟩
    · cases hcatalog
    · obtain rfl := CoverageFault.project.inj hproject
      rfl
  | unadjusted a b why _ ha hb =>
    rw [((continues_activate ha).wellFormed hp).adjustAll] at hb
    cases congrArg Prod.snd hb
  | adjusted a b he ha hb =>
    rw [configure_of_adjustAll he ha hb] at h
    obtain ⟨why, hw, hproject⟩ := except_mapError_error (except_map_error h)
    obtain rfl := CoverageFault.project.inj hproject
    exact isInternal_of_synthesizeAll ((continues_of_adjustAll ha hb).wellFormed hp) (Prod.ext rfl hw)

/-- No pass ends in an internal fault on a project that operations and rewritten tasks lead to, and none
processes a suite with one. On no project, be it midway through a pass, is a coverage task refused that is
registered after the checks; whatever fails there has failed at a check or for want of inputs. -/
theorem internal_faults_unreachable (hp : p.Attainable) (pass : CoveragePass) (suite reportsDir : String) :
    (∀ fault, (pass.configure p).2 = .error (.project fault) → fault.isInternal = false) ∧
    (∀ fault, pass.synthesize p suite = .error fault → fault.isInternal = false) ∧
    (∀ q : Project,
      (∀ data, q.RegistersPair (hostReport reportsDir data) (hostVerification data) defaultSuite) ∧
      (∀ fault, q.enableCoverage reportsDir = .error fault →
        q.checkPair defaultReportTask defaultVerificationTask defaultSuite = .error fault)) ∧
    ∀ q : Project,
      (∀ inputs, suiteInputs q suite = .ok inputs →
        q.RegistersPair (pass.reportTask inputs (pass.reportsRoot q)) (verificationTask inputs) suite) ∧
      (∀ fault, pass.synthesize q suite = .error fault →
        q.checkPair (reportTaskName suite) (verificationTaskName suite) suite = .error fault ∨
          suiteInputs q suite = .error fault) := by
  refine ⟨fun fault h => isInternal_of_configure hp.wellFormed h,
    fun fault h => isInternal_of_synthesize hp.wellFormed h, fun q => ⟨?_, ?_⟩, fun q => ⟨?_, ?_⟩⟩
  · exact q.registersPair_host reportsDir
  · exact fun fault h => checkPair_of_enableCoverage_error h
  · exact fun inputs hi => pass.registersPair_suite q hi
  · exact fun fault h => (checkPair_of_synthesize_error h).2

/-- A project with a toolchain whose `classes` task runs tests instead, and with a task in the way of the
verification of a suite. -/
def rewrittenSample : Project :=
  (Operation.run (Operation.run Project.sample (.apply (.toolchain .quarkus)))
    (.register { name := "coverage-verification-slow", action := .compile })).rewriteTask classesTask
      fun t => { t with action := .test { suite := "slow" } }

/-- With `classes` turned into a test run the pass still stops at the name that is taken, and the default
suite's tasks still can be registered. -/
theorem rewrittenSample_stopped :
    rewrittenSample.Attainable ∧
      (sample.configure rewrittenSample).2 =
        .error (.project (.duplicateTask ":model" "coverage-verification-slow")) ∧
      (∀ fault, (sample.configure rewrittenSample).2 = .error (.project fault) →
        fault.isInternal = false) ∧
      ∃ q, rewrittenSample.registerPair (false, false)
        (hostReport "build/reports" (defaultExecutionData "build"))
        (hostVerification (defaultExecutionData "build")) = .ok q := by
  have hp : rewrittenSample.Attainable :=
    .rewrite _ _ (.run (.register _) (.run (.apply _) reachable_sample.attainable))
  obtain ⟨hconfigure, _, hhost, _⟩ := internal_faults_unreachable hp sample "slow" "build/reports"
  exact ⟨hp, by decide, hconfigure, (hhost rewrittenSample).1 _ _ (by decide)⟩

end CoveragePass

end BuildGraph
