import Mathlib.Data.List.Forall2
import Mathlib.Logic.Relation
import BuildGraph.Proofs.Reachable
import BuildGraph.Proofs.SortedMap
import BuildGraph.Workspace

/-!
# Workers on a workspace

The pass on a workspace may be shared out among workers, which take the projects in any order and have
any number of them in hand at a time. All that they do comes to the same: each project ends up as a pass
on it alone leaves it, and the report accounts for each project once, by the outcome of that pass. The
projects must have distinct paths, since the report knows them by their paths; nothing else is assumed
about them.
-/

namespace BuildGraph

namespace Workspace

/-! ## Workers -/

/-- A project while workers are on the workspace. -/
inductive Cell where
  | waiting (p : Project)
  /-- A worker has the project in hand. -/
  | taken (p : Project)
  /-- The project as the pass has left it, under the path by which it is reported. -/
  | handled (path : String) (p : Project) (outcome : Except CoverageFault CoverageOutcome)

namespace Cell

/-- The project as it is. -/
def project : Cell → Project
  | waiting p => p
  | taken p => p
  | handled _ p _ => p

/-- What there is to report. -/
def outcome? : Cell → Option (String × Except CoverageFault CoverageOutcome)
  | handled path _ outcome => some (path, outcome)
  | _ => none

/-- The number of steps that are left to do. -/
def remaining : Cell → Nat
  | waiting _ => 2
  | taken _ => 1
  | handled .. => 0

/-- A project that a worker is done with. -/
def done (pass : CoveragePass) (p : Project) : Cell :=
  handled p.path (pass.configure p).1 (pass.configure p).2

/-- What a worker does to one project. -/
inductive Step (pass : CoveragePass) : Cell → Cell → Prop where
  | take (p : Project) : Step pass (waiting p) (taken p)
  | finish (p : Project) : Step pass (taken p) (done pass p)

/-- Whether a cell is about a project. -/
inductive Serves (pass : CoveragePass) (p : Project) : Cell → Prop where
  | waiting : Serves pass p (waiting p)
  | taken : Serves pass p (taken p)
  | done : Serves pass p (done pass p)

/-- A step keeps a cell about its project. -/
theorem Step.serves {pass : CoveragePass} {p : Project} {c c' : Cell} (h : Step pass c c')
    (hc : Serves pass p c) : Serves pass p c' := by
  cases h with
  | take q =>
    cases hc
    exact .taken
  | finish q =>
    cases hc
    exact .done

end Cell

/-- A step of some worker on some project. -/
inductive Step (pass : CoveragePass) : List Cell → List Cell → Prop where
  | here {c c' : Cell} (cells : List Cell) (h : Cell.Step pass c c') : Step pass (c :: cells) (c' :: cells)
  | there {cells cells' : List Cell} (c : Cell) (h : Step pass cells cells') :
    Step pass (c :: cells) (c :: cells')

/-- Steps of workers, in any order. -/
abbrev Run (pass : CoveragePass) : List Cell → List Cell → Prop := Relation.ReflTransGen (Step pass)

/-- The number of steps that are left to do on all projects. -/
def remaining : List Cell → Nat
  | [] => 0
  | c :: cells => c.remaining + remaining cells

/-- Whether nothing is left to do. -/
def Complete (cells : List Cell) : Prop := ∀ c ∈ cells, c.remaining = 0

/-- The projects as they are, and the report in the order of the projects. -/
def collect (cells : List Cell) : List Project × Report :=
  (cells.map Cell.project,
    (cells.filterMap Cell.outcome?).foldl (fun r outcome => r.add outcome.1 outcome.2) {})

section

variable {pass : CoveragePass} {projects : List Project} {cells cells' : List Cell}

/-- A step concerns one project and leaves the others alone. -/
theorem Step.serves (h : Step pass cells cells') (hc : projects.Forall₂ (Cell.Serves pass) cells) :
    projects.Forall₂ (Cell.Serves pass) cells' := by
  induction h generalizing projects with
  | here cells h =>
    cases hc with
    | cons hc hrest => exact .cons (h.serves hc) hrest
  | there c _ ih =>
    cases hc with
    | cons hc hrest => exact .cons hc (ih hrest)

/-- Whatever workers do, each cell is about its own project. -/
theorem Run.serves (h : Run pass (projects.map .waiting) cells) :
    projects.Forall₂ (Cell.Serves pass) cells := by
  induction h with
  | refl =>
    rw [List.forall₂_map_right_iff, List.forall₂_same]
    exact fun _ _ => .waiting
  | tail _ hstep ih => exact hstep.serves ih

/-! ## Workers get done -/

/-- Each step brings the end nearer, so workers cannot go on for ever. -/
theorem Step.remaining (h : Step pass cells cells') :
    remaining cells = remaining cells' + 1 := by
  induction h with
  | here cells h =>
    cases h with
    | take p => simp only [Workspace.remaining, Cell.remaining]; omega
    | finish p => simp only [Workspace.remaining, Cell.remaining, Cell.done]; omega
  | there c _ ih =>
    simp only [Workspace.remaining]
    omega

/-- As long as something is left to do, some worker can do it. -/
theorem exists_step (pass : CoveragePass) (h : ¬ Complete cells) : ∃ cells', Step pass cells cells' := by
  induction cells with
  | nil => exact absurd (fun c hc => by cases hc) h
  | cons c cells ih =>
    cases c with
    | waiting p => exact ⟨_, .here cells (.take p)⟩
    | taken p => exact ⟨_, .here cells (.finish p)⟩
    | handled path p outcome =>
      have hrest : ¬ Complete cells := fun hrest => h fun c hc => by
        rcases List.mem_cons.mp hc with rfl | hc
        · rfl
        · exact hrest c hc
      obtain ⟨cells', hstep⟩ := ih hrest
      exact ⟨_, .there _ hstep⟩

/-- Nothing is left to do exactly if no step is. -/
theorem complete_iff : Complete cells ↔ remaining cells = 0 := by
  induction cells with
  | nil => simp [Complete, remaining]
  | cons c cells ih =>
    rw [remaining, Nat.add_eq_zero_iff, ← ih]
    exact List.forall_mem_cons

/-- Whatever has been done so far, workers can finish. -/
theorem exists_complete (pass : CoveragePass) (cells : List Cell) :
    ∃ final, Run pass cells final ∧ Complete final := by
  induction hn : remaining cells generalizing cells with
  | zero => exact ⟨cells, .refl, complete_iff.mpr hn⟩
  | succ n ih =>
    have hc : ¬ Complete cells := by
      rw [complete_iff, hn]
      exact Nat.succ_ne_zero n
    obtain ⟨cells', hstep⟩ := exists_step pass hc
    have hless := hstep.remaining
    obtain ⟨final, hrun, hfinal⟩ := ih cells' (by omega)
    exact ⟨final, .head hstep hrun, hfinal⟩

/-- When nothing is left to do, each project has been through a pass of its own. -/
theorem eq_done_of_complete (h : projects.Forall₂ (Cell.Serves pass) cells) (hc : Complete cells) :
    cells = projects.map (Cell.done pass) := by
  induction h with
  | nil => rfl
  | @cons p c projects cells hserves _ ih =>
    have hdone : c = Cell.done pass p := by
      have hz := hc c (List.mem_cons_self ..)
      cases hserves with
      | waiting => cases hz
      | taken => cases hz
      | done => rfl
    rw [hdone, List.map_cons, ih fun c hm => hc c (List.mem_cons_of_mem _ hm)]

/-- What workers come to is what passes one after the other come to. -/
theorem collect_eq_configure (h : Run pass (projects.map .waiting) cells) (hc : Complete cells) :
    collect cells = configure pass projects := by
  have houtcomes : (projects.map (Cell.done pass)).filterMap Cell.outcome? =
      projects.map fun p => (p.path, (pass.configure p).2) := by
    rw [List.filterMap_map, ← List.filterMap_eq_map]
    rfl
  rw [eq_done_of_complete h.serves hc, collect, houtcomes, List.map_map, List.foldl_map]
  rfl

end

/-! ## The report -/

/-- The tasks created for a project with coverage. -/
def configured? : String × Except CoverageFault CoverageOutcome → Option (String × List String)
  | (path, .ok (.configured created)) => some (path, created)
  | _ => none

/-- A project without coverage. -/
def skipped? : String × Except CoverageFault CoverageOutcome → Option String
  | (path, .ok .skipped) => some path
  | _ => none

/-- A project on which the pass failed. -/
def failed? : String × Except CoverageFault CoverageOutcome → Option (String × CoverageFault)
  | (path, .error fault) => some (path, fault)
  | _ => none

/-- A report lists outcomes by their kinds. -/
theorem foldl_add (l : List (String × Except CoverageFault CoverageOutcome)) (r : Report) :
    l.foldl (fun r outcome => r.add outcome.1 outcome.2) r =
      { configured := (l.filterMap configured?).foldl (fun m e => m.insert e.1 e.2) r.configured
        skipped := r.skipped ++ l.filterMap skipped?
        failed := r.failed ++ l.filterMap failed? } := by
  induction l generalizing r with
  | nil => simp
  | cons outcome l ih =>
    rw [List.foldl_cons, ih]
    obtain ⟨path, (fault | (_ | created))⟩ := outcome <;>
      simp [Report.add, List.filterMap_cons, configured?, skipped?, failed?]

/-- Each outcome is of exactly one kind. -/
theorem count_outcomes (l : List (String × Except CoverageFault CoverageOutcome)) (path : String) :
    ((l.filterMap configured?).map (·.1)).count path + (l.filterMap skipped?).count path +
      ((l.filterMap failed?).map (·.1)).count path = (l.map (·.1)).count path := by
  induction l with
  | nil => rfl
  | cons outcome l ih =>
    obtain ⟨other, (fault | (_ | created))⟩ := outcome <;>
      simp only [List.filterMap_cons, configured?, skipped?, failed?, List.map_cons,
        List.count_cons] <;> omega

/-- Counting the kinds of outcomes counts all of them. -/
theorem length_outcomes (l : List (String × Except CoverageFault CoverageOutcome)) :
    (l.filterMap configured?).length + (l.filterMap skipped?).length + (l.filterMap failed?).length =
      l.length := by
  induction l with
  | nil => rfl
  | cons outcome l ih =>
    obtain ⟨path, (fault | (_ | created))⟩ := outcome <;>
      simp only [List.filterMap_cons, configured?, skipped?, failed?, List.length_cons] <;> omega

/-- Whether a report accounts for each project once, by the outcome of a pass on it alone. -/
structure Accounts (pass : CoveragePass) (projects : List Project) (r : Report) : Prop where
  configured : ∀ path created, r.configured.find? path = some created ↔
    ∃ p ∈ projects, p.path = path ∧ (pass.configure p).2 = .ok (.configured created)
  skipped : r.skipped =
    (projects.filter fun p => (pass.configure p).2 = .ok .skipped).map (·.path)
  failed : r.failed = projects.filterMap fun p =>
    match (pass.configure p).2 with
    | .ok _ => none
    | .error fault => some (p.path, fault)
  /-- Each project is in one place. -/
  once : ∀ p ∈ projects, (if r.configured.contains p.path then 1 else 0) + r.skipped.count p.path +
    (r.failed.map (·.1)).count p.path = 1

section

variable {pass : CoveragePass} {projects others : List Project}

/-- The outcomes of a pass, by the paths of the projects. -/
def outcomes (pass : CoveragePass) (projects : List Project) :
    List (String × Except CoverageFault CoverageOutcome) :=
  projects.map fun p => (p.path, (pass.configure p).2)

/-- There is one outcome for each project, in order. -/
theorem paths_outcomes (pass : CoveragePass) (projects : List Project) :
    (outcomes pass projects).map (·.1) = projects.map (·.path) := by
  rw [outcomes, List.map_map]
  rfl

/-- The report sorts outcomes by their kinds. -/
theorem report_configure (pass : CoveragePass) (projects : List Project) :
    (configure pass projects).2 =
      { configured := ((outcomes pass projects).filterMap configured?).foldl
          (fun m e => m.insert e.1 e.2) .empty
        skipped := (outcomes pass projects).filterMap skipped?
        failed := (outcomes pass projects).filterMap failed? } := by
  have h := foldl_add (outcomes pass projects) {}
  rw [outcomes, List.foldl_map] at h
  exact h

/-- Configured are the projects on which a pass by itself gets through, with the same tasks created. -/
theorem mem_configured_iff {path : String} {created : List String} :
    (path, created) ∈ (outcomes pass projects).filterMap configured? ↔
      ∃ p ∈ projects, p.path = path ∧ (pass.configure p).2 = .ok (.configured created) := by
  rw [outcomes, List.filterMap_map, List.mem_filterMap]
  refine exists_congr fun p => and_congr_right fun _ => ?_
  rw [Function.comp_apply]
  rcases (pass.configure p).2 with fault | (_ | names) <;> simp [configured?]

/-- Among projects with distinct paths no configured one hides another. -/
theorem nodup_configured (pass : CoveragePass) (hd : (projects.map (·.path)).Nodup) :
    (((outcomes pass projects).filterMap configured?).map (·.1)).Nodup := by
  refine List.nodup_iff_count_le_one.mpr fun path => ?_
  have hcount := count_outcomes (outcomes pass projects) path
  have hle := List.nodup_iff_count_le_one.mp hd path
  rw [paths_outcomes] at hcount
  omega

/-- The report on projects with distinct paths accounts for each of them once. -/
theorem accounts_configure (pass : CoveragePass) (hd : (projects.map (·.path)).Nodup) :
    Accounts pass projects (configure pass projects).2 := by
  have hnodup := nodup_configured pass hd
  rw [report_configure]
  refine ⟨fun path created => ?_, ?_, ?_, fun p hp => ?_⟩
  · rw [SortedMap.find?_foldl_insert_eq_some_iff hnodup, mem_configured_iff]
  · change (outcomes pass projects).filterMap skipped? = _
    rw [outcomes, List.filterMap_map, ← List.filterMap_eq_filter, List.map_filterMap]
    refine List.filterMap_congr fun p _ => ?_
    rw [Function.comp_apply]
    rcases h : (pass.configure p).2 with fault | (_ | created) <;> simp [skipped?, Option.guard, h]
  · change (outcomes pass projects).filterMap failed? = _
    rw [outcomes, List.filterMap_map]
    refine List.filterMap_congr fun p _ => ?_
    rw [Function.comp_apply]
    rcases (pass.configure p).2 with fault | (_ | created) <;> rfl
  · dsimp only
    have hcount := count_outcomes (outcomes pass projects) p.path
    have hone : (projects.map (·.path)).count p.path = 1 :=
      List.count_eq_one_of_mem hd (List.mem_map_of_mem hp)
    have hbound := SortedMap.contains_foldl_insert hnodup p.path
    rw [← List.count_pos_iff] at hbound
    rw [paths_outcomes, hone] at hcount
    split <;> rename_i hc <;> rw [hbound] at hc <;> omega

/-- The report on projects with distinct paths counts each of them once, and with coverage those that the
policy takes in. -/
theorem counts_configure (pass : CoveragePass) (hd : (projects.map (·.path)).Nodup) :
    (configure pass projects).2.configured.size + (configure pass projects).2.skipped.length +
        (configure pass projects).2.failed.length = projects.length ∧
      (configure pass projects).2.configured.size + (configure pass projects).2.failed.length =
        projects.countP fun p => pass.policy.isEligible p.path := by
  have hlength : (outcomes pass projects).length = projects.length := List.length_map _
  have htotal : (configure pass projects).2.configured.size +
      (configure pass projects).2.skipped.length + (configure pass projects).2.failed.length =
        projects.length := by
    rw [report_configure, SortedMap.size_foldl_insert (nodup_configured pass hd), length_outcomes, hlength]
  have hskipped : (configure pass projects).2.skipped.length =
      projects.countP fun p => ¬ pass.policy.isEligible p.path := by
    rw [(accounts_configure pass hd).skipped, List.length_map, ← List.countP_eq_length_filter]
    refine List.countP_congr fun p _ => ?_
    simp [CoveragePass.configure_eq_skipped_iff]
  have hparts := projects.length_eq_countP_add_countP fun p => pass.policy.isEligible p.path
  exact ⟨htotal, by omega⟩

/-- A report is a success exactly if the pass fails on no project. -/
theorem isSuccess_configure (pass : CoveragePass) (projects : List Project) :
    (configure pass projects).2.isSuccess ↔
      ∀ p ∈ projects, ∀ fault, (pass.configure p).2 ≠ .error fault := by
  rw [report_configure, Report.isSuccess, List.isEmpty_iff, List.filterMap_eq_nil_iff, outcomes,
    List.forall_mem_map]
  refine forall₂_congr fun p _ => ?_
  rcases (pass.configure p).2 with fault | (_ | created) <;> simp [failed?]

/-- The order of the projects does not matter for what is reported of those with coverage. -/
theorem configured_perm (hd : (projects.map (·.path)).Nodup) (hp : others.Perm projects) :
    (configure pass others).2.configured = (configure pass projects).2.configured := by
  have hd' : (others.map (·.path)).Nodup := (hp.map _).nodup_iff.mpr hd
  refine SortedMap.ext fun path => Option.ext fun created => ?_
  rw [(accounts_configure pass hd').configured, (accounts_configure pass hd).configured]
  simp only [hp.mem_iff]

/-- Whatever workers do on projects with distinct paths, they can finish, and then each project is as a
pass on it alone leaves it and the report accounts for each of them once. In another order of the
projects, each ends up the same, and so does the map of those with coverage. -/
theorem workers_isolate_projects (pass : CoveragePass) (hd : (projects.map (·.path)).Nodup) :
    (∀ cells, Run pass (projects.map .waiting) cells → ∃ final, Run pass cells final ∧ Complete final) ∧
    ∀ cells, Run pass (projects.map .waiting) cells → Complete cells →
      collect cells = configure pass projects ∧
      (collect cells).1 = projects.map (fun p => (pass.configure p).1) ∧
      Accounts pass projects (collect cells).2 ∧
      ((collect cells).2.isSuccess ↔ ∀ p ∈ projects, ∀ fault, (pass.configure p).2 ≠ .error fault) ∧
      ∀ (others : List Project) (otherCells : List Cell), others.Perm projects →
        Run pass (others.map .waiting) otherCells → Complete otherCells →
        (collect otherCells).2.configured = (collect cells).2.configured ∧
        ∀ (i j : Nat) (p : Project), others[i]? = some p → projects[j]? = some p →
          (collect otherCells).1[i]? = (collect cells).1[j]? := by
  refine ⟨fun cells _ => exists_complete pass cells, fun cells hrun hc => ?_⟩
  rw [collect_eq_configure hrun hc]
  refine ⟨rfl, rfl, accounts_configure pass hd, isSuccess_configure pass projects, ?_⟩
  intro others otherCells hp hrun' hc'
  rw [collect_eq_configure hrun' hc']
  refine ⟨configured_perm hd hp, fun i j p hi hj => ?_⟩
  have hmap : ∀ l : List Project, (configure pass l).1 = l.map fun p => (pass.configure p).1 :=
    fun _ => rfl
  rw [hmap, hmap, List.getElem?_map, List.getElem?_map, hi, hj]

end

/-- Three projects: one with a suite that records data, one whose suite records none, one without
suites of its own. -/
def mixed : List Project :=
  [Project.sample,
    Project.Operation.run (.fresh ":store" "store/build") (.addSuite "slow" none none),
    .fresh ":bom" "bom/build"]

/-- A pass that leaves the last of the three out. -/
def mixedPass : CoveragePass := { CoveragePass.sample with policy.excludes := [⟨":bom".toList.map .char⟩] }

/-- One project is configured, one is left out and one fails, and each is listed once. -/
theorem mixed_accounted_for :
    ∃ cells, Run mixedPass (mixed.map .waiting) cells ∧ Complete cells ∧
      (collect cells).2.configured.find? ":model" =
        some ["coverage-report-slow", "coverage-verification-slow"] ∧
      (collect cells).2.skipped = [":bom"] ∧
      (collect cells).2.failed = [(":store", .project (.incompleteSuite ":store" "slow"))] := by
  have hd : (mixed.map (·.path)).Nodup := by decide
  have h := workers_isolate_projects mixedPass hd
  obtain ⟨cells, hrun, hc⟩ := h.1 _ .refl
  obtain ⟨heq, _⟩ := h.2 cells hrun hc
  refine ⟨cells, hrun, hc, ?_⟩
  rw [heq]
  refine ⟨?_, ?_, ?_⟩ <;> decide

end Workspace

end BuildGraph
