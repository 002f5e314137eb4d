import Mathlib.Data.List.Forall2
import BuildGraph.Proofs.Declarations
import BuildGraph.Proofs.SettingsDuplicates
import BuildGraph.Workspace

/-!
# Which workspaces can be built

A project can be made from its settings exactly if all toolchains that it lists exist and no suite has the
name of a builtin suite or task. What is in the way is looked for in a fixed order: projects as they are
listed, and for each the toolchains before the suites. Suite names are taken to be distinct within a
project, which the check of the settings sees to; nothing else is assumed, and toolchains may be listed
more than once.
-/

namespace BuildGraph

/-! ## Toolchains by name -/

namespace Toolchain

/-- Whether a toolchain has a name. -/
def Known (name : String) : Prop := ∃ t : Toolchain, t.name = name

/-- A toolchain is found exactly by its name. -/
theorem ofName?_eq_some_iff {name : String} {t : Toolchain} : ofName? name = some t ↔ t.name = name := by
  constructor
  · intro h
    have hname := List.find?_some h
    simpa using hname
  · rintro rfl
    exact ofName?_name t

/-- No toolchain is found exactly under the names that no toolchain has. -/
theorem ofName?_eq_none_iff {name : String} : ofName? name = none ↔ ¬ Known name := by
  rw [Option.eq_none_iff_forall_ne_some, Known, not_exists]
  simp only [ne_eq, ofName?_eq_some_iff]

instance (name : String) : Decidable (Known name) :=
  decidable_of_iff ((ofName? name).isSome) <| by
    rw [← not_iff_not, ← ofName?_eq_none_iff, Option.not_isSome_iff_eq_none]

/-- No two toolchains share a task for generated sources. -/
theorem generatedSourcesTask_injective {a b : Toolchain}
    (h : a.generatedSourcesTask = b.generatedSourcesTask) : a = b := by
  cases a
  cases b
  rfl

/-- The task that compiles the generated sources. -/
def sourcesTask (t : Toolchain) : Task where
  name := t.generatedSourcesTask
  action := .compile

end Toolchain

namespace Project

variable {p q r : Project} {name : String} {ts us : List Task}

/-! ## Names that are taken -/

/-- Whether a suite or a task has a name. -/
def Takes (p : Project) (name : String) : Prop := p.suites.contains name ∨ p.tasks.contains name

/-- Whether `q` is in the same place as `p`, with tasks put behind its own, and takes no other names
besides. -/
structure Gains (p q : Project) (ts : List Task) : Prop where
  path : q.path = p.path
  buildDir : q.buildDir = p.buildDir
  uberJar : q.uberJar = p.uberJar
  tasks : q.tasks.tasks = p.tasks.tasks ++ ts
  takes : ∀ name, q.Takes name ↔ (∃ t ∈ ts, t.name = name) ∨ p.Takes name

namespace Gains

theorem refl (p : Project) : p.Gains p [] := ⟨rfl, rfl, rfl, (List.append_nil _).symm, by simp⟩

theorem trans (h : p.Gains q ts) (h' : q.Gains r us) : p.Gains r (ts ++ us) where
  path := h'.path.trans h.path
  buildDir := h'.buildDir.trans h.buildDir
  uberJar := h'.uberJar.trans h.uberJar
  tasks := by rw [h'.tasks, h.tasks, List.append_assoc]
  takes name := by
    rw [h'.takes, h.takes]
    simp only [List.mem_append]
    grind

end Gains

/-- With tasks put behind the earlier ones, the names are those of both. -/
theorem contains_of_tasks (h : q.tasks.tasks = p.tasks.tasks ++ ts) (name : String) :
    q.tasks.contains name ↔ p.tasks.contains name ∨ ∃ t ∈ ts, t.name = name := by
  rw [TaskGraph.contains_iff_mem_names, TaskGraph.contains_iff_mem_names, TaskGraph.names, h,
    List.map_append, List.mem_append, TaskGraph.names, List.mem_map (l := ts)]

/-! ## Suites -/

/-- No suite can be declared under a name that is taken. -/
theorem addSuite_of_takes (h : p.Takes name) (file sourceSet : Option String) :
    p.addSuite name file sourceSet = .error (.duplicateTask p.path name) := by
  unfold addSuite
  cases hs : p.suites.contains name with
  | true => rfl
  | false =>
    have ht : p.tasks.contains name := by
      rcases h with h | h
      · rw [hs] at h
        cases h
      · exact h
    rw [register_of_taken (t := { name, action := .test { suite := name } }) ht]
    rfl

/-- Under any other name a suite can be declared, and takes that name. -/
theorem addSuite_of_not_takes {d : Declaration} (h : ¬ p.Takes d.name) :
    ∃ q, p.addSuite d.name d.file d.sourceSet = .ok q ∧ p.Gains q [d.testTask] := by
  rw [Takes, not_or, Bool.not_eq_true, Bool.not_eq_true] at h
  obtain ⟨hsuites, htasks⟩ := h
  obtain ⟨q, hq, hd⟩ := declare_of_free hsuites (TaskGraph.contains_eq_false_iff.mp htasks)
  have hadd := declare_eq_some_iff.mp hq
  obtain ⟨_, _, m, suite, hg, _, hqm⟩ := addSuite_ok hadd
  have hlist : q.tasks.tasks = p.tasks.tasks ++ [d.testTask] := by
    rw [hqm, ← p.conform_testTask d]
    exact hg.tasks
  refine ⟨q, hadd, hd.path, ?_, ?_, hlist, fun name => ?_⟩
  · rw [hd.rest]
  · rw [hd.rest]
  · rw [Takes, hd.contains_iff, contains_of_tasks hlist, Takes]
    have hname : (∃ t ∈ [d.testTask], t.name = name) ↔ name = d.name := by
      simp [Declaration.testTask, eq_comm]
    rw [hname]
    grind

/-! ## Toolchains -/

/-- A toolchain that is applied takes the name of its task, unless a task has it. -/
theorem gains_apply_toolchain (p : Project) (t : Toolchain) :
    p.Gains (p.apply (.toolchain t))
      (if p.tasks.contains t.generatedSourcesTask then [] else [t.sourcesTask]) := by
  have hlist : (p.apply (.toolchain t)).tasks.tasks = p.tasks.tasks ++
      (if p.tasks.contains t.generatedSourcesTask then [] else [t.sourcesTask]) := by
    refine (TaskGraph.tasks_ensure p.tasks t.sourcesTask).trans ?_
    cases h : p.tasks.contains t.generatedSourcesTask <;> simp [Toolchain.sourcesTask, h]
  refine ⟨rfl, rfl, rfl, hlist, fun name => ?_⟩
  have hsuites : (p.apply (.toolchain t)).suites = p.suites := rfl
  rw [Takes, contains_of_tasks hlist, Takes, hsuites]
  grind

/-- The task of a toolchain is there exactly if it was or the toolchain is the one that is applied. -/
theorem contains_apply_toolchain (p : Project) (t u : Toolchain) :
    (p.apply (.toolchain t)).tasks.contains u.generatedSourcesTask =
      (u == t || p.tasks.contains u.generatedSourcesTask) := by
  rw [Bool.eq_iff_iff, contains_of_tasks (p.gains_apply_toolchain t).tasks, Bool.or_eq_true, beq_iff_eq]
  by_cases hu : u = t
  · subst hu
    cases h : p.tasks.contains u.generatedSourcesTask <;> simp [Toolchain.sourcesTask]
  · have hne : t.generatedSourcesTask ≠ u.generatedSourcesTask := fun h =>
      hu (Toolchain.generatedSourcesTask_injective h).symm
    rw [or_iff_right hu, or_iff_left_iff_imp]
    rintro ⟨task, htask, he⟩
    split at htask
    · cases htask
    · rw [List.mem_singleton.mp htask] at he
      exact absurd he hne

/-- A project with toolchains applied one after the other. -/
def applyEach (ts : List Toolchain) (p : Project) : Project :=
  ts.foldl (fun p t => p.apply (.toolchain t)) p

/-- Toolchains that are applied bring one task each, however often they are applied. -/
theorem gains_applyEach (ts : List Toolchain) (p : Project) :
    p.Gains (applyEach ts p)
      ((ts.filter fun t => !p.tasks.contains t.generatedSourcesTask).eraseDups.map Toolchain.sourcesTask) := by
  induction ts generalizing p with
  | nil => exact .refl p
  | cons t ts ih =>
    have hfirst := p.gains_apply_toolchain t
    have hrest := ih (p.apply (.toolchain t))
    simp only [contains_apply_toolchain, Bool.not_or] at hrest
    rw [List.filter_cons]
    cases h : p.tasks.contains t.generatedSourcesTask with
    | true =>
      -- The name is taken, so that its toolchain is among the filtered ones neither now nor later.
      have hsame : ∀ u : Toolchain, (!(u == t) && !p.tasks.contains u.generatedSourcesTask) =
          !p.tasks.contains u.generatedSourcesTask := by
        intro u
        by_cases hu : u = t
        · rw [hu, h, Bool.not_true, Bool.and_false]
        · rw [beq_eq_false_iff_ne.mpr hu, Bool.not_false, Bool.true_and]
      simp only [hsame] at hrest
      rw [if_pos h] at hfirst
      exact hfirst.trans hrest
    | false =>
      -- The name is free, and later applications find it taken by this one.
      rw [if_neg (by simp [h])] at hfirst
      rw [Bool.not_false, if_pos rfl, List.eraseDups_cons, List.filter_filter, List.map_cons]
      exact hfirst.trans hrest

end Project

/-! ## What is in the way of a project -/

namespace Workspace

/-- Whether a suite of a project cannot have a name: that of the default suite, of its test task, of the
task for all classes, or of the task of a toolchain that the project lists. -/
def Reserves (spec : Settings.Project) (name : String) : Prop :=
  name ∈ [defaultSuite, defaultTestTask, classesTask] ∨
    ∃ t : Toolchain, t.name ∈ spec.toolchains ∧ t.generatedSourcesTask = name

/-- Whether a project lists only toolchains that exist, and suites that have names of their own. -/
structure Buildable (spec : Settings.Project) : Prop where
  known : ∀ name ∈ spec.toolchains, Toolchain.Known name
  free : ∀ suite ∈ spec.suites, ¬ Reserves spec suite.name

/-- Whether a fault is the first thing in the way of a project: its first unknown toolchain or, if it has
none, its first suite with a reserved name. -/
inductive Obstructs (spec : Settings.Project) : BuildFault → Prop
  | toolchain {earlier later : List String} {name : String}
      (listed : spec.toolchains = earlier ++ name :: later)
      (known : ∀ other ∈ earlier, Toolchain.Known other) (unknown : ¬ Toolchain.Known name) :
      Obstructs spec (.unknownToolchain spec.path name)
  | suite {earlier later : List Settings.Suite} {suite : Settings.Suite}
      (known : ∀ name ∈ spec.toolchains, Toolchain.Known name)
      (listed : spec.suites = earlier ++ suite :: later)
      (free : ∀ other ∈ earlier, ¬ Reserves spec other.name) (reserved : Reserves spec suite.name) :
      Obstructs spec (.project (.duplicateTask spec.path suite.name))

/-- The toolchains that a project lists, without repetitions. -/
def listedToolchains (spec : Settings.Project) : List Toolchain :=
  (spec.toolchains.filterMap Toolchain.ofName?).eraseDups

/-- The test task of a suite. -/
def suiteTask (suite : Settings.Suite) : Task where
  name := suite.name
  action := .test { suite := suite.name }

/-- Whether a project is what the settings say, with its tasks in order: those of every project, those of
its toolchains and those of its suites. -/
structure Realizes (c : Context) (spec : Settings.Project) (p : Project) : Prop where
  path : p.path = spec.path
  buildDir : p.buildDir = Workspace.buildDir c spec
  uberJar : p.uberJar = spec.uberJar
  tasks : p.tasks.tasks =
    [{ name := classesTask, action := .compile },
      { name := defaultTestTask, action := .test { suite := defaultSuite } }] ++
    (listedToolchains spec).map Toolchain.sourcesTask ++ spec.suites.map suiteTask

variable {c : Context} {spec : Settings.Project} {p q : Project} {fault : BuildFault}

/-- The listed toolchains are those whose names are listed, however often. -/
theorem mem_listedToolchains {t : Toolchain} : t ∈ listedToolchains spec ↔ t.name ∈ spec.toolchains := by
  simp only [listedToolchains, List.mem_eraseDups, List.mem_filterMap, Toolchain.ofName?_eq_some_iff]
  grind

instance (spec : Settings.Project) (name : String) : Decidable (Reserves spec name) :=
  decidable_of_iff (name ∈ [defaultSuite, defaultTestTask, classesTask] ∨
      name ∈ (listedToolchains spec).map Toolchain.generatedSourcesTask) <| by
    simp only [Reserves, List.mem_map, mem_listedToolchains]

instance (spec : Settings.Project) : Decidable (Buildable spec) :=
  decidable_of_iff ((∀ name ∈ spec.toolchains, Toolchain.Known name) ∧
      ∀ suite ∈ spec.suites, ¬ Reserves spec suite.name)
    ⟨fun h => ⟨h.1, h.2⟩, fun h => ⟨h.known, h.free⟩⟩

/-- The first element without a property. -/
theorem exists_first_not {α : Type} {P : α → Prop} {l : List α} (h : ¬ ∀ x ∈ l, P x) :
    ∃ earlier x later, l = earlier ++ x :: later ∧ (∀ y ∈ earlier, P y) ∧ ¬ P x := by
  classical
  cases hfind : l.find? fun x => decide (¬ P x) with
  | none =>
    refine absurd (fun x hx => ?_) h
    simpa using List.find?_eq_none.mp hfind x hx
  | some x =>
    obtain ⟨hx, earlier, later, hl, hbefore⟩ := List.find?_eq_some_iff_append.mp hfind
    exact ⟨earlier, x, later, hl, by simpa using hbefore, by simpa using hx⟩

/-- A project can be built, or something is in the way. -/
theorem buildable_or_obstructs (spec : Settings.Project) :
    Buildable spec ∨ ∃ fault, Obstructs spec fault := by
  by_cases hknown : ∀ name ∈ spec.toolchains, Toolchain.Known name
  · by_cases hfree : ∀ suite ∈ spec.suites, ¬ Reserves spec suite.name
    · exact .inl ⟨hknown, hfree⟩
    · obtain ⟨earlier, suite, later, hl, hbefore, hreserved⟩ := exists_first_not hfree
      exact .inr ⟨_, .suite hknown hl hbefore (not_not.mp hreserved)⟩
  · obtain ⟨earlier, name, later, hl, hbefore, hunknown⟩ := exists_first_not hknown
    exact .inr ⟨_, .toolchain hl hbefore hunknown⟩

/-! ## Making one project -/

/-- Known toolchains in front are applied in order, and what follows goes on from there. -/
theorem applyToolchains_append {names : List String} (h : ∀ name ∈ names, Toolchain.Known name)
    (rest : List String) (p : Project) :
    applyToolchains (names ++ rest) p =
      applyToolchains rest (p.applyEach (names.filterMap Toolchain.ofName?)) := by
  induction names generalizing p with
  | nil => rfl
  | cons name names ih =>
    obtain ⟨t, ht⟩ := h name (List.mem_cons_self ..)
    have hof := Toolchain.ofName?_eq_some_iff.mpr ht
    rw [List.cons_append, applyToolchains, hof, List.filterMap_cons_some hof]
    exact ih (fun other ho => h other (List.mem_cons_of_mem _ ho)) _

/-- Suites of distinct names can be declared if none of the names is taken. -/
theorem addSuites_append {suites : List Settings.Suite} (hn : (suites.map (·.name)).Nodup)
    (hfree : ∀ suite ∈ suites, ¬ p.Takes suite.name) :
    ∃ q, (∀ rest, addSuites (suites ++ rest) p = addSuites rest q) ∧
      p.Gains q (suites.map suiteTask) := by
  induction suites generalizing p with
  | nil => exact ⟨p, fun _ => rfl, .refl p⟩
  | cons suite suites ih =>
    rw [List.map_cons, List.nodup_cons] at hn
    let d : Project.Declaration :=
      ⟨suite.name, suite.executionData.map (Path.join p.buildDir ·), suite.sourceSet⟩
    obtain ⟨m, hm, hgain⟩ := Project.addSuite_of_not_takes (d := d) (hfree suite (List.mem_cons_self ..))
    -- The only name that is taken now and was not before is this suite's, which no later one has.
    have hlater : ∀ other ∈ suites, ¬ m.Takes other.name := by
      intro other ho ht
      rcases (hgain.takes other.name).mp ht with ⟨t, ht, he⟩ | ht
      · rw [List.mem_singleton.mp ht] at he
        exact hn.1 (List.mem_map.mpr ⟨other, ho, he.symm⟩)
      · exact hfree other (List.mem_cons_of_mem _ ho) ht
    obtain ⟨q, hq, hgain'⟩ := ih hn.2 hlater
    refine ⟨q, fun rest => ?_, hgain.trans hgain'⟩
    rw [List.cons_append, addSuites, hm]
    exact hq rest

/-- What a project is before it has toolchains and suites of its own. -/
def bare (c : Context) (spec : Settings.Project) : Project :=
  let p := { Project.fresh spec.path (buildDir c spec) with uberJar := spec.uberJar }
  if (matrixCell? spec.path c.settings.matrix).isSome then p.apply .matrixBuild else p

/-- A project is made in three stages: bare, with toolchains, with suites. -/
theorem buildProject_eq (c : Context) (spec : Settings.Project) :
    buildProject c spec = (applyToolchains spec.toolchains (bare c spec)).bind fun p =>
      (addSuites spec.suites p).mapError .project := rfl

/-- A bare project gains no task, whether or not it belongs to the matrix. -/
theorem gains_bare (c : Context) (spec : Settings.Project) :
    { Project.fresh spec.path (buildDir c spec) with uberJar := spec.uberJar }.Gains (bare c spec) [] := by
  unfold bare
  split
  · exact ⟨rfl, rfl, rfl, (List.append_nil _).symm, by simp [Project.Takes, Project.apply]⟩
  · exact .refl _

/-- The tasks of every project. -/
theorem tasks_bare (c : Context) (spec : Settings.Project) : (bare c spec).tasks.tasks =
    [{ name := classesTask, action := .compile },
      { name := defaultTestTask, action := .test { suite := defaultSuite } }] := by
  rw [(gains_bare c spec).tasks]
  rfl

/-- Every project takes the names of its builtin suite and tasks. -/
theorem takes_bare {name : String} :
    (bare c spec).Takes name ↔ name ∈ [defaultSuite, defaultTestTask, classesTask] := by
  have hsuites : (bare c spec).suites.contains name ↔ name = defaultSuite := by
    have hs : (bare c spec).suites = (Project.fresh spec.path (buildDir c spec)).suites := by
      unfold bare
      split <;> rfl
    rw [hs, SortedMap.contains, Project.fresh, SortedMap.find?_insert]
    by_cases h : name = defaultSuite <;> simp [h]
  rw [Project.Takes, hsuites, TaskGraph.contains_iff_mem_names, TaskGraph.names, tasks_bare]
  simp only [List.map_cons, List.map_nil, List.mem_cons, List.not_mem_nil, or_false]
  grind

/-- In a bare project the tasks for generated sources have free names. -/
theorem generatedSourcesTask_not_taken (t : Toolchain) :
    (bare c spec).tasks.contains t.generatedSourcesTask = false := by
  rw [← Bool.not_eq_true]
  intro h
  have ht := takes_bare.mp (.inr h : (bare c spec).Takes t.generatedSourcesTask)
  revert ht
  cases t
  decide

/-- A project with the toolchains that it lists. -/
def tooled (c : Context) (spec : Settings.Project) : Project :=
  (bare c spec).applyEach (spec.toolchains.filterMap Toolchain.ofName?)

/-- Each listed toolchain brings its compile task, in order and once. -/
theorem gains_tooled (c : Context) (spec : Settings.Project) :
    (bare c spec).Gains (tooled c spec) ((listedToolchains spec).map Toolchain.sourcesTask) := by
  have h := (bare c spec).gains_applyEach (spec.toolchains.filterMap Toolchain.ofName?)
  rw [tooled, listedToolchains]
  simpa only [generatedSourcesTask_not_taken, Bool.not_false, List.filter_true] using h

/-- What suites cannot be called is taken before the first of them. -/
theorem takes_tooled {name : String} : (tooled c spec).Takes name ↔ Reserves spec name := by
  rw [(gains_tooled c spec).takes, takes_bare, Reserves, or_comm]
  simp only [List.mem_map, exists_exists_and_eq_and, mem_listedToolchains, Toolchain.sourcesTask]

/-- Toolchains leave the path alone. -/
theorem path_tooled (c : Context) (spec : Settings.Project) : (tooled c spec).path = spec.path :=
  (gains_tooled c spec).path.trans (gains_bare c spec).path

/-- With all toolchains known, the project comes down to its suites. -/
theorem buildProject_of_known (h : ∀ name ∈ spec.toolchains, Toolchain.Known name) :
    buildProject c spec = (addSuites spec.suites (tooled c spec)).mapError .project := by
  have hall := applyToolchains_append h [] (bare c spec)
  rw [List.append_nil] at hall
  rw [buildProject_eq, hall]
  rfl

/-- A project with nothing in its way is made, and is what the settings say. -/
theorem buildProject_of_buildable (h : Buildable spec) (hn : (spec.suites.map (·.name)).Nodup) :
    ∃ p, buildProject c spec = .ok p ∧ Realizes c spec p := by
  obtain ⟨p, hp, hgain⟩ := addSuites_append (p := tooled c spec) hn
    fun suite hs ht => h.free suite hs (takes_tooled.mp ht)
  have hall := hp []
  rw [List.append_nil] at hall
  refine ⟨p, ?_, ?_⟩
  · rw [buildProject_of_known h.known, hall]
    rfl
  · have hpath := (gains_bare c spec).trans ((gains_tooled c spec).trans hgain)
    exact {
      path := hpath.path
      buildDir := hpath.buildDir
      uberJar := hpath.uberJar
      tasks := by rw [hgain.tasks, (gains_tooled c spec).tasks, tasks_bare] }

/-- What is in the way of a project is the fault. -/
theorem buildProject_of_obstructs (h : Obstructs spec fault) (hn : (spec.suites.map (·.name)).Nodup) :
    buildProject c spec = .error fault := by
  cases h with
  | @toolchain earlier later name listed known unknown =>
    have hpath : ((bare c spec).applyEach (earlier.filterMap Toolchain.ofName?)).path = spec.path :=
      ((bare c spec).gains_applyEach _).path.trans (gains_bare c spec).path
    rw [buildProject_eq, listed, applyToolchains_append known, applyToolchains,
      Toolchain.ofName?_eq_none_iff.mpr unknown, hpath]
    rfl
  | @suite earlier later suite known listed free reserved =>
    have hearlier : (earlier.map (·.name)).Nodup := by
      rw [listed, List.map_append] at hn
      exact hn.of_append_left
    have hlater : suite.name ∉ earlier.map (·.name) := by
      rw [listed, List.map_append, List.map_cons] at hn
      intro hm
      exact (List.nodup_append.mp hn).2.2 _ hm _ (List.mem_cons_self ..) rfl
    obtain ⟨p, hp, hgain⟩ := addSuites_append (p := tooled c spec) hearlier
      fun other ho ht => free other ho (takes_tooled.mp ht)
    have htaken : p.Takes suite.name := (hgain.takes _).mpr (.inr (takes_tooled.mpr reserved))
    rw [buildProject_of_known known, listed, hp, addSuites, Project.addSuite_of_takes htaken, hgain.path,
      path_tooled]
    rfl

/-! ## Making all projects -/

/-- Buildable projects in front are made one by one, and what follows goes on behind them. -/
theorem buildEach_append {specs : List Settings.Project} (h : ∀ spec ∈ specs, Buildable spec)
    (hd : ∀ spec ∈ specs, (spec.suites.map (·.name)).Nodup) :
    ∃ projects, List.Forall₂ (Realizes c) specs projects ∧
      ∀ rest, buildEach c (specs ++ rest) = (buildEach c rest).map (projects ++ ·) := by
  induction specs with
  | nil =>
    refine ⟨[], .nil, fun rest => ?_⟩
    rw [List.nil_append]
    cases buildEach c rest <;> rfl
  | cons spec specs ih =>
    obtain ⟨p, hp, hreal⟩ := buildProject_of_buildable (c := c) (h spec (List.mem_cons_self ..))
      (hd spec (List.mem_cons_self ..))
    obtain ⟨projects, hall, hrest⟩ := ih (fun s hs => h s (List.mem_cons_of_mem _ hs))
      fun s hs => hd s (List.mem_cons_of_mem _ hs)
    refine ⟨p :: projects, .cons hreal hall, fun rest => ?_⟩
    rw [List.cons_append, buildEach, hp]
    dsimp only
    rw [hrest]
    cases buildEach c rest <;> rfl

/-- The first project with something in its way is the fault. -/
theorem buildEach_of_obstructs {specs later : List Settings.Project}
    (h : ∀ spec ∈ specs, Buildable spec) (hd : ∀ spec ∈ specs, (spec.suites.map (·.name)).Nodup)
    (ho : Obstructs spec fault) (hn : (spec.suites.map (·.name)).Nodup) :
    buildEach c (specs ++ spec :: later) = .error fault := by
  obtain ⟨projects, _, hrest⟩ := buildEach_append (c := c) h hd
  rw [hrest, buildEach, buildProject_of_obstructs ho hn]
  rfl

/-- The projects that are made of settings without duplicates are what the settings list, or the fault is
the first thing in the way of the first project that has any. -/
theorem buildProjects_cases (hs : c.settings.duplicate? = none) :
    ((∀ spec ∈ c.settings.projects, Buildable spec) ∧
      ∃ projects, buildProjects c = .ok projects ∧
        List.Forall₂ (Realizes c) c.settings.projects projects) ∨
    ∃ fault, buildProjects c = .error fault ∧
      ∃ earlier spec later, c.settings.projects = earlier ++ spec :: later ∧
        (∀ other ∈ earlier, Buildable other) ∧ ¬ Buildable spec ∧ Obstructs spec fault := by
  have hdistinct := (Settings.duplicate?_eq_none_iff.mp hs).2
  by_cases hall : ∀ spec ∈ c.settings.projects, Buildable spec
  · obtain ⟨projects, hreal, hrest⟩ := buildEach_append (c := c) hall hdistinct
    refine .inl ⟨hall, projects, ?_, hreal⟩
    have hnil := hrest []
    rw [List.append_nil] at hnil
    rw [buildProjects, hnil, buildEach, Except.map, List.append_nil]
  · obtain ⟨earlier, spec, later, hl, hbefore, hnot⟩ := exists_first_not hall
    obtain ⟨fault, ho⟩ := (buildable_or_obstructs spec).resolve_left hnot
    refine .inr ⟨fault, ?_, earlier, spec, later, hl, hbefore, hnot, ho⟩
    rw [hl] at hdistinct
    rw [buildProjects, hl]
    exact buildEach_of_obstructs hbefore (fun other h => hdistinct other (List.mem_append_left _ h)) ho
      (hdistinct spec (by simp))

/-- If all projects can be made, each realizes its own settings, in order. -/
theorem realizes_of_buildProjects {projects : List Project} (hs : c.settings.duplicate? = none)
    (h : buildProjects c = .ok projects) : List.Forall₂ (Realizes c) c.settings.projects projects := by
  rcases buildProjects_cases hs with ⟨_, others, ho, hreal⟩ | ⟨fault, hf, _⟩
  · obtain rfl := Except.ok.inj (ho.symm.trans h)
    exact hreal
  · rw [hf] at h
    cases h

/-- Projects that are built have the paths of the settings. -/
theorem paths_of_realizes {specs : List Settings.Project} {projects : List Project}
    (h : List.Forall₂ (Realizes c) specs projects) : projects.map (·.path) = specs.map (·.path) := by
  induction h with
  | nil => rfl
  | cons hreal _ ih => rw [List.map_cons, List.map_cons, hreal.path, ih]

/-- Settings without duplicates can be built exactly if each project can. Otherwise the fault is the
first thing in the way of the first project that has any; and the projects that are built are what the
settings list, one by one. -/
theorem buildProjects_exact (hs : c.settings.duplicate? = none) :
    ((∃ projects, buildProjects c = .ok projects) ↔ ∀ spec ∈ c.settings.projects, Buildable spec) ∧
      (∀ fault, buildProjects c = .error fault →
        ∃ earlier spec later, c.settings.projects = earlier ++ spec :: later ∧
          (∀ other ∈ earlier, Buildable other) ∧ ¬ Buildable spec ∧ Obstructs spec fault) ∧
      ∀ projects, buildProjects c = .ok projects →
        List.Forall₂ (Realizes c) c.settings.projects projects := by
  refine ⟨⟨fun ⟨projects, hp⟩ => ?_, fun hall => ?_⟩, fun fault hf => ?_,
    fun projects => realizes_of_buildProjects hs⟩
  · rcases buildProjects_cases hs with ⟨hall, _⟩ | ⟨fault, hf, _⟩
    · exact hall
    · rw [hf] at hp
      cases hp
  · rcases buildProjects_cases hs with ⟨_, projects, hp, _⟩ | ⟨_, _, _, spec, _, hl, _, hnot, _⟩
    · exact ⟨projects, hp⟩
    · exact absurd (hall spec (by simp [hl])) hnot
  · rcases buildProjects_cases hs with ⟨_, projects, hp, _⟩ | ⟨other, ho, hfirst⟩
    · rw [hp] at hf
      cases hf
    · obtain rfl := Except.error.inj (ho.symm.trans hf)
      exact hfirst

/-- A project that lists a toolchain twice. -/
def serverSample : Settings.Project where
  path := ":server"
  toolchains := ["quarkus", "quarkus"]
  suites := [{ name := "intTest", executionData := some "int.exec" }, { name := "slowTest" }]

/-- A project with a suite that has the name of a toolchain's task. -/
def clientSample : Settings.Project where
  path := ":client"
  toolchains := ["quarkus"]
  suites := [{ name := "intTest" }, { name := "compileQuarkusGeneratedSourcesJava" }, { name := "classes" }]

/-- A workspace of given projects. -/
def contextSample (projects : List Settings.Project) : Context := .new "/work" { projects } {} .default

/-- A toolchain listed twice does no harm; a suite with the name of its task stops the workspace with a
fault of that project. -/
theorem buildProjects_exact_samples :
    ((contextSample [serverSample]).settings.duplicate? = none ∧
      ∃ projects, buildProjects (contextSample [serverSample]) = .ok projects ∧
        List.Forall₂ (Realizes (contextSample [serverSample])) [serverSample] projects) ∧
    (contextSample [serverSample, clientSample]).settings.duplicate? = none ∧
      ∃ earlier spec later, [serverSample, clientSample] = earlier ++ spec :: later ∧
        (∀ other ∈ earlier, Buildable other) ∧ ¬ Buildable spec ∧
          Obstructs spec (.project (.duplicateTask ":client" "compileQuarkusGeneratedSourcesJava")) := by
  have hserver : (contextSample [serverSample]).settings.duplicate? = none := by decide
  have hboth : (contextSample [serverSample, clientSample]).settings.duplicate? = none := by decide
  have hbuildable : ∀ spec ∈ (contextSample [serverSample]).settings.projects, Buildable spec := by decide
  have hfault : buildProjects (contextSample [serverSample, clientSample]) =
      .error (.project (.duplicateTask ":client" "compileQuarkusGeneratedSourcesJava")) := by
    decide
  obtain ⟨projects, hp⟩ := (buildProjects_exact hserver).1.mpr hbuildable
  exact ⟨⟨hserver, projects, hp, (buildProjects_exact hserver).2.2 projects hp⟩, hboth,
    (buildProjects_exact hboth).2.1 _ hfault⟩

end Workspace

end BuildGraph
