import BuildGraph.Project
import BuildGraph.Proofs.CoverageTask

/-!
# Registering tasks

Registering under a free name puts one task behind the others; under a taken name it fails. A name
counts as a coverage task only if its holder has the kind and the suite that are asked for. All that
an operation may do to a project without disturbing its suites and coverage tasks is summed up in
one relation, which composes. Coverage tasks come in pairs: both names are checked, and then neither
registration fails.
-/

namespace BuildGraph

/-! ## Two steps of a computation -/

section

variable {ε ε' α β : Type}

/-- Two stages succeed if the first one does, and the second one on its result. -/
theorem except_bind_ok {x : Except ε α} {f : α → Except ε β} {b : β} (h : x >>= f = .ok b) :
    ∃ a, x = .ok a ∧ f a = .ok b := by
  cases x with
  | error e => cases h
  | ok a => exact ⟨a, rfl, h⟩

/-- Two stages fail at the first one, or at the second one on the result of the first. -/
theorem except_bind_error {x : Except ε α} {f : α → Except ε β} {e : ε} (h : x >>= f = .error e) :
    x = .error e ∨ ∃ a, x = .ok a ∧ f a = .error e := by
  cases x with
  | error e' => exact Or.inl (congrArg Except.error (Except.error.inj h))
  | ok a => exact Or.inr ⟨a, rfl, h⟩

/-- A changed result comes from a result. -/
theorem except_map_ok {x : Except ε α} {f : α → β} {b : β} (h : x.map f = .ok b) :
    ∃ a, x = .ok a ∧ b = f a := by
  cases x with
  | error e => cases h
  | ok a => exact ⟨a, rfl, (Except.ok.inj h).symm⟩

/-- Changing the result changes no failure. -/
theorem except_map_error {x : Except ε α} {f : α → β} {e : ε} (h : x.map f = .error e) :
    x = .error e := by
  cases x with
  | error e' => exact congrArg Except.error (Except.error.inj h)
  | ok a => cases h

/-- Changing the failure changes no result. -/
theorem except_mapError_ok {x : Except ε α} {f : ε → ε'} {a : α} (h : x.mapError f = .ok a) :
    x = .ok a := by
  cases x with
  | error e => cases h
  | ok a' => exact congrArg Except.ok (Except.ok.inj h)

/-- A changed failure comes from a failure. -/
theorem except_mapError_error {x : Except ε α} {f : ε → ε'} {e' : ε'} (h : x.mapError f = .error e') :
    ∃ e, x = .error e ∧ e' = f e := by
  cases x with
  | error e => exact ⟨e, rfl, (Except.error.inj h).symm⟩
  | ok a => cases h

end

namespace Project

/-! ## Growing by tasks -/

/-- Whether `q` is `p` with tasks put behind its own. -/
structure Grows (p q : Project) (ts : List Task) : Prop where
  rest : q = { p with tasks := q.tasks }
  tasks : q.tasks.tasks = p.tasks.tasks ++ ts

namespace Grows

variable {p q r : Project} {ts us : List Task}

theorem refl (p : Project) : p.Grows p [] := ⟨rfl, (List.append_nil _).symm⟩

theorem trans (h : p.Grows q ts) (h' : q.Grows r us) : p.Grows r (ts ++ us) := by
  refine ⟨?_, ?_⟩
  · rw [h'.rest, h.rest]
  · rw [h'.tasks, h.tasks, List.append_assoc]

/-- A name leads to the task it led to before, or else to the first new one that is called so. -/
theorem task? (h : p.Grows q ts) (name : String) :
    q.task? name = (p.task? name).or (ts.find? (·.name == name)) :=
  TaskGraph.get?_of_append h.tasks name

/-- A name that was free can only have gone to a new task. -/
theorem mem_of_task? {t : Task} {name : String} (h : p.Grows q ts) (hn : p.task? name = none)
    (ht : q.task? name = some t) : t ∈ ts ∧ t.name = name := by
  rw [h.task?, hn, Option.none_or] at ht
  have hname := List.find?_some ht
  exact ⟨List.mem_of_find?_eq_some ht, eq_of_beq hname⟩

/-- New names come behind the old ones. -/
theorem names (h : p.Grows q ts) : q.tasks.names = p.tasks.names ++ ts.map (·.name) := by
  rw [TaskGraph.names, h.tasks, List.map_append, TaskGraph.names]

theorem path (h : p.Grows q ts) : q.path = p.path := by rw [h.rest]

theorem buildDir (h : p.Grows q ts) : q.buildDir = p.buildDir := by rw [h.rest]

/-- No task brings a capability. -/
theorem capabilities (h : p.Grows q ts) : q.capabilities = p.capabilities := by rw [h.rest]

/-- Tasks alone are gained; the suites stay. -/
theorem suites (h : p.Grows q ts) : q.suites = p.suites := by rw [h.rest]

theorem sourceSets (h : p.Grows q ts) : q.sourceSets = p.sourceSets := by rw [h.rest]

theorem coverage (h : p.Grows q ts) : q.coverage = p.coverage := by rw [h.rest]

theorem convention (h : p.Grows q ts) : q.convention = p.convention := by rw [h.rest]

end Grows

/-- A task as the project registers it. -/
def conform (p : Project) (t : Task) : Task :=
  match p.convention with
  | some convention => t.followConvention convention
  | none => t

/-- A task is registered under its own name. -/
theorem name_conform (p : Project) (t : Task) : (p.conform t).name = t.name := by
  unfold conform
  split
  · exact Task.name_followConvention t _
  · rfl

/-- A task is registered with its own inputs and places, whatever the convention requires. -/
theorem outline?_conform (p : Project) (t : Task) : (p.conform t).outline? = t.outline? := by
  unfold conform
  split
  · exact Task.outline?_followConvention t _
  · rfl

/-- Registering inserts a task in the form that the convention asks for. -/
theorem register_eq (p : Project) (t : Task) :
    p.register t = ((p.tasks.insert (p.conform t)).map fun tasks => { p with tasks }).mapError
      fun rejected => .duplicateTask p.path rejected.name := by
  unfold register conform
  cases p.convention with
  | none => cases h : p.tasks.insert t <;> simp [h, Except.map, Except.mapError]
  | some c => cases h : p.tasks.insert (t.followConvention c) <;> simp [h, Except.map, Except.mapError]

/-- A task is registered under a free name. -/
theorem register_of_free {p : Project} {t : Task} (h : p.task? t.name = none) :
    ∃ q, p.register t = .ok q ∧ p.Grows q [p.conform t] := by
  have hc : p.tasks.get? (p.conform t).name = none := by rwa [name_conform]
  obtain ⟨grown, hi, ht⟩ := TaskGraph.insert_of_free hc
  refine ⟨{ p with tasks := grown }, ?_, rfl, ht⟩
  rw [register_eq, hi]
  rfl

/-- A taken name is a fault. -/
theorem register_of_taken {p : Project} {t : Task} (h : p.tasks.contains t.name) :
    p.register t = .error (.duplicateTask p.path t.name) := by
  have hc : p.tasks.contains (p.conform t).name := by rwa [name_conform]
  rw [register_eq, TaskGraph.insert_of_taken hc, ← name_conform p t]
  rfl

/-- A registered task stands behind all others, in the form that the convention gives it. -/
theorem register_ok {p q : Project} {t : Task} (h : p.register t = .ok q) :
    p.Grows q [p.conform t] := by
  cases hc : p.tasks.contains t.name with
  | true =>
    rw [register_of_taken hc] at h
    cases h
  | false =>
    obtain ⟨q', hq, hg⟩ := register_of_free (TaskGraph.contains_eq_false_iff.mp hc)
    obtain rfl : q' = q := Except.ok.inj (hq.symm.trans h)
    exact hg

/-- A task that is registered only if it is needed meets no fault if its name is free then. -/
theorem registerIf_of_free {p : Project} {needed : Bool} {t : Task}
    (h : needed = true → p.task? t.name = none) :
    ∃ q, p.registerIf needed t = .ok q ∧ p.Grows q (if needed then [p.conform t] else []) := by
  cases needed with
  | false => exact ⟨p, rfl, Grows.refl p⟩
  | true => exact register_of_free (h rfl)

/-! ## Names of coverage tasks -/

/-- Whether a name is held by the coverage task of a kind for a suite. -/
def Holds (p : Project) (name : String) (kind : CoverageKind) (suite : String) : Prop :=
  ∃ t, p.task? name = some t ∧ t.suiteFor? kind = some suite

section

variable {p : Project} {name suite : String} {kind : CoverageKind}

/-- A name is held by the report for a suite if a report of that suite's data is registered under it. -/
theorem holds_report_iff :
    p.Holds name .report suite ↔
      ∃ t r, p.task? name = some t ∧ t.action = .report r ∧ r.inputs.suite = suite := by
  constructor
  · rintro ⟨t, ht, hs⟩
    cases ha : t.action <;> simp only [Task.suiteFor?, ha, Option.some.injEq, reduceCtorEq] at hs
    exact ⟨t, _, ht, ha, hs⟩
  · rintro ⟨t, r, ht, ha, hs⟩
    exact ⟨t, ht, by simp [Task.suiteFor?, ha, hs]⟩

/-- A name is held by the verification for a suite if a verification of that suite's data is registered
under it. -/
theorem holds_verification_iff :
    p.Holds name .verification suite ↔
      ∃ t inputs, p.task? name = some t ∧ t.action = .verification inputs ∧ inputs.suite = suite := by
  constructor
  · rintro ⟨t, ht, hs⟩
    cases ha : t.action <;> simp only [Task.suiteFor?, ha, Option.some.injEq, reduceCtorEq] at hs
    exact ⟨t, _, ht, ha, hs⟩
  · rintro ⟨t, inputs, ht, ha, hs⟩
    exact ⟨t, ht, by simp [Task.suiteFor?, ha, hs]⟩

/-- The look-up finds a coverage task exactly if that one holds the name. -/
theorem hasCoverageTask_eq_true_iff :
    p.hasCoverageTask name kind suite = .ok true ↔ p.Holds name kind suite := by
  unfold hasCoverageTask Holds
  cases p.task? name with
  | none => simp
  | some t => by_cases h : t.suiteFor? kind = some suite <;> simp [h]

/-- The look-up finds no task exactly if the name is free; a name held by another task is a fault. -/
theorem hasCoverageTask_eq_false_iff :
    p.hasCoverageTask name kind suite = .ok false ↔ p.task? name = none := by
  unfold hasCoverageTask
  cases p.task? name with
  | none => simp
  | some t => by_cases h : t.suiteFor? kind = some suite <;> simp [h]

/-- Every other holder of the name is a fault. -/
theorem hasCoverageTask_eq_error_iff {fault : ProjectFault} :
    p.hasCoverageTask name kind suite = .error fault ↔
      fault = .duplicateTask p.path name ∧ p.tasks.contains name ∧ ¬ p.Holds name kind suite := by
  unfold hasCoverageTask Holds
  rw [TaskGraph.contains_eq_isSome_get?]
  change _ ↔ _ ∧ (p.task? name).isSome = true ∧ _
  cases p.task? name with
  | none => simp
  | some t => by_cases h : t.suiteFor? kind = some suite <;> simp [h, @eq_comm _ fault]

/-- A name that is held is taken. -/
theorem Holds.contains (h : p.Holds name kind suite) : p.tasks.contains name := by
  obtain ⟨t, ht, _⟩ := h
  rw [TaskGraph.contains_eq_isSome_get?]
  exact Option.isSome_of_eq_some ht

end

/-! ## What stays -/

/-- Whether a project keeps its place, its suites, its source sets, its toolchains and the outline of
every task it had. -/
structure Continues (p q : Project) : Prop where
  path : q.path = p.path
  buildDir : q.buildDir = p.buildDir
  suites : q.suites = p.suites
  sourceSets : q.sourceSets = p.sourceSets
  has_toolchain : ∀ t, q.has (.toolchain t) = p.has (.toolchain t)
  outline : ∀ {name t}, p.task? name = some t → ∃ u, q.task? name = some u ∧ u.outline? = t.outline?

namespace Continues

variable {p q r : Project}

theorem refl (p : Project) : p.Continues p :=
  ⟨rfl, rfl, rfl, rfl, fun _ => rfl, fun h => ⟨_, h, rfl⟩⟩

theorem trans (h : p.Continues q) (h' : q.Continues r) : p.Continues r where
  path := h'.path.trans h.path
  buildDir := h'.buildDir.trans h.buildDir
  suites := h'.suites.trans h.suites
  sourceSets := h'.sourceSets.trans h.sourceSets
  has_toolchain t := (h'.has_toolchain t).trans (h.has_toolchain t)
  outline ht := by
    obtain ⟨u, hu, hut⟩ := h.outline ht
    obtain ⟨v, hv, hvu⟩ := h'.outline hu
    exact ⟨v, hv, hvu.trans hut⟩

/-- A project that grows continues itself. -/
theorem of_grows {ts : List Task} (h : p.Grows q ts) : p.Continues q where
  path := h.path
  buildDir := h.buildDir
  suites := h.suites
  sourceSets := h.sourceSets
  has_toolchain t := by rw [has, has, h.capabilities]
  outline {name t} ht := ⟨t, by rw [h.task?, ht, Option.some_or], rfl⟩

/-- Changing tasks under their outlines disturbs nothing. -/
theorem of_mapTasks (p : Project) {f : Task → Task} (hf : ∀ t, (f t).outline? = t.outline?) :
    p.Continues { p with tasks := p.tasks.mapTasks f } where
  path := rfl
  buildDir := rfl
  suites := rfl
  sourceSets := rfl
  has_toolchain _ := rfl
  outline {name t} ht := by
    refine ⟨TaskGraph.keepName f t, ?_, hf t⟩
    change (p.tasks.mapTasks f).get? name = _
    rw [TaskGraph.get?_mapTasks, show p.tasks.get? name = some t from ht, Option.map_some]

/-- No name becomes free again. -/
theorem contains (h : p.Continues q) {name : String} (hc : p.tasks.contains name) :
    q.tasks.contains name := by
  rw [TaskGraph.contains_eq_isSome_get?] at hc ⊢
  obtain ⟨t, ht⟩ := Option.isSome_iff_exists.mp hc
  obtain ⟨u, hu, _⟩ := h.outline ht
  exact Option.isSome_of_eq_some hu

/-- A name that is held by a coverage task stays with it, since its outline stays. -/
theorem holds (h : p.Continues q) {name suite : String} {kind : CoverageKind}
    (hh : p.Holds name kind suite) : q.Holds name kind suite := by
  obtain ⟨t, ht, hs⟩ := hh
  obtain ⟨u, hu, hut⟩ := h.outline ht
  exact ⟨u, hu, (Task.suiteFor?_congr hut kind).trans hs⟩

/-- A name that was taken is the right coverage task afterwards only if it was before. -/
theorem holds_of_contains (h : p.Continues q) {name suite : String} {kind : CoverageKind}
    (hc : p.tasks.contains name) (hh : q.Holds name kind suite) : p.Holds name kind suite := by
  rw [TaskGraph.contains_eq_isSome_get?] at hc
  obtain ⟨t, ht⟩ := Option.isSome_iff_exists.mp hc
  obtain ⟨u, hu, hut⟩ := h.outline ht
  obtain ⟨v, hv, hs⟩ := hh
  obtain rfl : u = v := Option.some.inj (hu.symm.trans hv)
  exact ⟨t, ht, (Task.suiteFor?_congr hut kind).symm.trans hs⟩

/-- The suites to process stay the same. -/
theorem derivedSuites (h : p.Continues q) : q.derivedSuites = p.derivedSuites := by
  rw [Project.derivedSuites, h.suites, Project.derivedSuites]

end Continues

/-! ## Registering what is absent -/

/-- The tasks of a list whose names are free, in the form in which they are registered. -/
def absent (p : Project) (ts : List Task) : List Task :=
  (ts.filter fun t => !p.tasks.contains t.name).map p.conform

/-- The absent tasks are those with free names, in their order. -/
theorem names_absent (p : Project) (ts : List Task) :
    (p.absent ts).map (·.name) = (ts.map (·.name)).filter fun name => !p.tasks.contains name := by
  simp [absent, Function.comp_def, name_conform, List.filter_map]

/-- Whether a name is taken is what the check for a coverage task finds out. -/
theorem contains_of_hasCoverageTask {p : Project} {name suite : String} {kind : CoverageKind} {b : Bool}
    (h : p.hasCoverageTask name kind suite = .ok b) : p.tasks.contains name = b := by
  cases b with
  | false => exact TaskGraph.contains_eq_false_iff.mpr (hasCoverageTask_eq_false_iff.mp h)
  | true => exact (hasCoverageTask_eq_true_iff.mp h).contains

/-- Register those tasks of a pair that are not there. -/
def registerPair (p : Project) (has : Bool × Bool) (report verification : Task) :
    Except ProjectFault Project := do
  let m ← p.registerIf (!has.1) report
  m.registerIf (!has.2) verification

/-- Two tasks of different names are registered one after the other as far as they are absent. -/
theorem registerPair_of_contains (p : Project) {r v : Task} (hn : r.name ≠ v.name) :
    ∃ q, p.registerPair (p.tasks.contains r.name, p.tasks.contains v.name) r v = .ok q ∧
      p.Grows q (p.absent [r, v]) := by
  have hr : (!p.tasks.contains r.name) = true → p.task? r.name = none := by
    intro h
    exact TaskGraph.contains_eq_false_iff.mp (by simpa using h)
  obtain ⟨m, hm, hg⟩ := registerIf_of_free hr
  have hv : (!p.tasks.contains v.name) = true → m.task? v.name = none := by
    intro h
    have hfree : p.task? v.name = none := TaskGraph.contains_eq_false_iff.mp (by simpa using h)
    rw [hg.task?, hfree, Option.none_or]
    split <;> simp [name_conform, hn]
  obtain ⟨q, hq, hg'⟩ := registerIf_of_free hv
  have hc : m.conform v = p.conform v := by rw [conform, hg.convention, conform]
  refine ⟨q, by rw [registerPair, hm]; exact hq, ?_⟩
  have hsum : p.absent [r, v] = (if !p.tasks.contains r.name then [p.conform r] else []) ++
      (if !p.tasks.contains v.name then [m.conform v] else []) := by
    rw [hc]
    cases hr : p.tasks.contains r.name <;> cases hv : p.tasks.contains v.name <;>
      simp [absent, hr, hv]
  rw [hsum]
  exact hg.trans hg'

/-- A gained coverage task holds its name for its suite. -/
theorem Grows.holds {p q : Project} {ts : List Task} {t : Task} {kind : CoverageKind}
    {suite : String} (h : p.Grows q ts) (ht : t ∈ ts) (hs : t.suiteFor? kind = some suite) :
    q.Holds t.name kind suite := by
  refine ⟨t, TaskGraph.get?_eq_some_iff.mpr ⟨?_, rfl⟩, hs⟩
  rw [h.tasks]
  exact List.mem_append_right _ ht

/-- A name that has been checked is held by the right task once the task is registered if absent. -/
theorem Grows.holds_of_checked {p q : Project} {ts : List Task} {t : Task} {kind : CoverageKind}
    {suite : String} {b : Bool} (h : p.Grows q (p.absent ts)) (ht : t ∈ ts)
    (hs : t.suiteFor? kind = some suite) (hb : p.hasCoverageTask t.name kind suite = .ok b) :
    q.Holds t.name kind suite := by
  cases b with
  | true => exact (Continues.of_grows h).holds (hasCoverageTask_eq_true_iff.mp hb)
  | false =>
    have hc := contains_of_hasCoverageTask hb
    have hm : p.conform t ∈ p.absent ts :=
      List.mem_map_of_mem (List.mem_filter.mpr ⟨ht, by simp [hc]⟩)
    have hk : (p.conform t).suiteFor? kind = some suite :=
      (Task.suiteFor?_congr (outline?_conform p t) kind).trans hs
    simpa only [name_conform] using h.holds hm hk

/-- Whether two names are held by the report and the verification of a suite. -/
structure HoldsPair (p : Project) (report verification suite : String) : Prop where
  report : p.Holds report .report suite
  verification : p.Holds verification .verification suite

/-- A pair that is there stays there. -/
theorem HoldsPair.continues {p q : Project} {report verification suite : String}
    (h : p.HoldsPair report verification suite) (hc : p.Continues q) :
    q.HoldsPair report verification suite :=
  ⟨hc.holds h.report, hc.holds h.verification⟩

/-- Check the names of a suite's report and verification: whether each is there already. -/
def checkPair (p : Project) (report verification suite : String) :
    Except ProjectFault (Bool × Bool) := do
  let hasReport ← p.hasCoverageTask report .report suite
  let hasVerification ← p.hasCoverageTask verification .verification suite
  return (hasReport, hasVerification)

section

variable {p : Project} {report verification suite : String} {has : Bool × Bool}

/-- The check of a pair answers what the two look-ups answer. -/
theorem checkPair_eq_ok_iff :
    p.checkPair report verification suite = .ok has ↔
      p.hasCoverageTask report .report suite = .ok has.1 ∧
        p.hasCoverageTask verification .verification suite = .ok has.2 := by
  constructor
  · intro h
    obtain ⟨hasReport, hr, h⟩ := except_bind_ok h
    obtain ⟨hasVerification, hv, h⟩ := except_bind_ok h
    obtain rfl := Except.ok.inj h
    exact ⟨hr, hv⟩
  · rintro ⟨hr, hv⟩
    rw [checkPair, hr, hv]
    rfl

/-- Both names are found exactly if the right tasks hold them. -/
theorem checkPair_eq_true_iff :
    p.checkPair report verification suite = .ok (true, true) ↔ p.HoldsPair report verification suite := by
  rw [checkPair_eq_ok_iff, hasCoverageTask_eq_true_iff, hasCoverageTask_eq_true_iff]
  exact ⟨fun h => ⟨h.1, h.2⟩, fun h => ⟨h.report, h.verification⟩⟩

/-- A check fails only because another task has one of the names. -/
theorem checkPair_error {fault : ProjectFault}
    (h : p.checkPair report verification suite = .error fault) :
    ∃ name ∈ [report, verification], fault = .duplicateTask p.path name ∧ p.tasks.contains name := by
  rcases except_bind_error h with hr | ⟨_, _, h⟩
  · obtain ⟨hf, hc, _⟩ := hasCoverageTask_eq_error_iff.mp hr
    exact ⟨report, by simp, hf, hc⟩
  rcases except_bind_error h with hv | ⟨_, _, h⟩
  · obtain ⟨hf, hc, _⟩ := hasCoverageTask_eq_error_iff.mp hv
    exact ⟨verification, by simp, hf, hc⟩
  · cases h

/-- Once both names are checked, registering the two tasks succeeds and leaves both names held. -/
theorem registerPair_of_checked {r v : Task} (hc : p.checkPair r.name v.name suite = .ok has)
    (hrs : r.suiteFor? .report = some suite) (hvs : v.suiteFor? .verification = some suite)
    (hn : r.name ≠ v.name) :
    ∃ q, p.registerPair has r v = .ok q ∧ p.Grows q (p.absent [r, v]) ∧
      q.HoldsPair r.name v.name suite := by
  obtain ⟨hr, hv⟩ := checkPair_eq_ok_iff.mp hc
  obtain ⟨q, hq, hg⟩ := p.registerPair_of_contains hn
  rw [contains_of_hasCoverageTask hr, contains_of_hasCoverageTask hv] at hq
  exact ⟨q, hq, hg, hg.holds_of_checked (by simp) hrs hr, hg.holds_of_checked (by simp) hvs hv⟩

end

end Project

end BuildGraph
