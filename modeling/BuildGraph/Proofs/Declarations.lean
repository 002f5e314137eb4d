import BuildGraph.Proofs.Reachable

/-!
# Declaring suites in any order

Declaring a suite looks at nothing but its own name, and changes nothing but what is found under that
name. Suites may therefore be declared in any order: either all orders succeed or none does, and the
projects they give differ in nothing but the order of their tasks.
-/

namespace BuildGraph

namespace SortedMap

variable {κ υ : Type} [Ord κ] [Std.TransOrd κ] [Std.LawfulEqOrd κ] [DecidableEq κ]

/-- Bindings of different keys may be made in any order. -/
theorem insert_insert_comm (m : SortedMap κ υ) {key other : κ} (h : key ≠ other) (value value' : υ) :
    (m.insert key value).insert other value' = (m.insert other value').insert key value := by
  refine ext fun k => ?_
  rw [find?_insert, find?_insert, find?_insert, find?_insert]
  by_cases hk : k = key
  · rw [if_neg (fun e => h (hk.symm.trans e)), if_pos hk, if_pos hk]
  · rw [if_neg hk, if_neg hk]

end SortedMap

/-- Elements may be added in any order. -/
theorem SortedSet.add_add_comm {κ : Type} [Ord κ] [Std.TransOrd κ] [Std.LawfulEqOrd κ] [DecidableEq κ]
    (s : SortedSet κ) (x y : κ) : (s.add x).add y = (s.add y).add x := by
  by_cases h : x = y
  · rw [h]
  · exact SortedMap.insert_insert_comm s h () ()

namespace Project

/-! ## Projects that differ in the order of tasks -/

/-- Whether two projects differ in nothing but the order of their tasks. -/
structure Alike (p q : Project) : Prop where
  rest : q = { p with tasks := q.tasks }
  task? : ∀ name, q.task? name = p.task? name

namespace Alike

variable {p q r : Project}

theorem refl (p : Project) : p.Alike p := ⟨rfl, fun _ => rfl⟩

theorem symm (h : p.Alike q) : q.Alike p := by
  refine ⟨?_, fun name => (h.task? name).symm⟩
  rw [h.rest]

theorem trans (h : p.Alike q) (h' : q.Alike r) : p.Alike r := by
  refine ⟨?_, fun name => (h'.task? name).trans (h.task? name)⟩
  rw [h'.rest, h.rest]

theorem path (h : p.Alike q) : q.path = p.path := by rw [h.rest]

theorem suites (h : p.Alike q) : q.suites = p.suites := by rw [h.rest]

theorem sourceSets (h : p.Alike q) : q.sourceSets = p.sourceSets := by rw [h.rest]

theorem capabilities (h : p.Alike q) : q.capabilities = p.capabilities := by rw [h.rest]

theorem coverage (h : p.Alike q) : q.coverage = p.coverage := by rw [h.rest]

theorem convention (h : p.Alike q) : q.convention = p.convention := by rw [h.rest]

/-- The same tasks are listed. -/
theorem perm (h : p.Alike q) : q.tasks.tasks.Perm p.tasks.tasks := by
  refine (List.perm_ext_iff_of_nodup q.tasks.nodup_tasks p.tasks.nodup_tasks).mpr fun t => ?_
  have hiff : ∀ g : TaskGraph, t ∈ g.tasks ↔ g.get? t.name = some t := by
    intro g
    rw [TaskGraph.get?_eq_some_iff, and_iff_left rfl]
  have hget : q.tasks.get? t.name = p.tasks.get? t.name := h.task? t.name
  rw [hiff, hiff, hget]

end Alike

/-! ## Declarations -/

/-- A suite as it is declared. -/
structure Declaration where
  name : String
  /-- The file of the suite's data, if it records any. -/
  file : Option String := none
  /-- The source set of the tests; that of the suite's name if absent. -/
  sourceSet : Option String := none
deriving DecidableEq, Repr

namespace Declaration

/-- The test task that comes with a suite. -/
def testTask (d : Declaration) : Task where
  name := d.name
  action := .test { suite := d.name }

/-- The suite that is declared. -/
def suite (d : Declaration) : TestSuite where
  name := d.name
  executionData := d.file.map fun file => ⟨d.name, file⟩
  sourceSet := d.sourceSet.getD d.name

/-- Whether `q` is `p` with a suite of a new name. -/
structure Declares (d : Declaration) (p q : Project) : Prop where
  new : p.suites.contains d.name = false
  free : p.task? d.name = none
  rest : q = { p with
    tasks := q.tasks
    sourceSets := p.sourceSets.add d.suite.sourceSet
    suites := p.suites.insert d.name d.suite }
  task?_self : q.task? d.name = some d.testTask
  task?_of_ne : ∀ {name}, name ≠ d.name → q.task? name = p.task? name

end Declaration

/-- The project with a suite declared, if that is possible. -/
def declare (p : Project) (d : Declaration) : Option Project :=
  (p.addSuite d.name d.file d.sourceSet).toOption

variable {p q r p' q' : Project} {a b d : Declaration}

/-- A test task has no reports that a convention could ask for. -/
theorem conform_testTask (p : Project) (d : Declaration) : p.conform d.testTask = d.testTask := by
  unfold conform
  cases p.convention <;> rfl

/-- A suite can be declared if its name is free among suites and tasks. -/
theorem declare_of_free (hn : p.suites.contains d.name = false) (hf : p.task? d.name = none) :
    ∃ q, p.declare d = some q ∧ d.Declares p q := by
  obtain ⟨m, hm, hg⟩ := register_of_free (t := d.testTask) hf
  have hq : p.declare d = some { m with
      sourceSets := m.sourceSets.add d.suite.sourceSet
      suites := m.suites.insert d.name d.suite } := by
    have hm : p.register { name := d.name, action := .test { suite := d.name } } = .ok m := hm
    rw [declare, addSuite, if_neg (by simp [hn]), hm]
    rfl
  have hfind : ∀ name, m.task? name =
      (p.task? name).or ([d.testTask].find? (·.name == name)) := by
    intro name
    rw [hg.task?, conform_testTask]
  refine ⟨_, hq, hn, hf, ?_, ?_, fun {name} hne => ?_⟩
  · rw [hg.rest]
  · have hself : m.task? d.name = some d.testTask := by
      rw [hfind, hf, Option.none_or]
      simp [Declaration.testTask]
    exact hself
  · have hother : m.task? name = p.task? name := by
      rw [hfind, List.find?_eq_none.mpr, Option.or_none]
      intro t ht
      rw [List.mem_singleton.mp ht]
      simpa [Declaration.testTask] using hne.symm
    exact hother

/-- To declare a suite is to add it. -/
theorem declare_eq_some_iff : p.declare d = some q ↔ p.addSuite d.name d.file d.sourceSet = .ok q := by
  unfold declare
  cases p.addSuite d.name d.file d.sourceSet <;> simp [Except.toOption]

/-- A declared suite comes with its test task and its source set, and all else stays. -/
theorem declares_of_declare (h : p.declare d = some q) : d.Declares p q := by
  obtain ⟨hn, hf, _⟩ := addSuite_ok (declare_eq_some_iff.mp h)
  obtain ⟨q', hq', hd⟩ := declare_of_free hn (TaskGraph.contains_eq_false_iff.mp hf)
  obtain rfl : q' = q := Option.some.inj (hq'.symm.trans h)
  exact hd

namespace Declaration.Declares

theorem path (h : d.Declares p q) : q.path = p.path := by rw [h.rest]

theorem capabilities (h : d.Declares p q) : q.capabilities = p.capabilities := by rw [h.rest]

/-- The suite that is declared is the only one that comes. -/
theorem suites (h : d.Declares p q) : q.suites = p.suites.insert d.name d.suite := by rw [h.rest]

/-- A declared suite brings its source set, which may have been there. -/
theorem sourceSets (h : d.Declares p q) : q.sourceSets = p.sourceSets.add d.suite.sourceSet := by
  rw [h.rest]

/-- A project has the suite that is declared and those it had. -/
theorem contains_iff (h : d.Declares p q) {name : String} :
    q.suites.contains name ↔ name = d.name ∨ p.suites.contains name := by
  rw [h.suites, SortedMap.contains, SortedMap.find?_insert, SortedMap.contains]
  by_cases hn : name = d.name <;> simp [hn]

/-- Declaring one suite does not get in the way of one with another name. -/
theorem free_iff (h : d.Declares p q) (hne : b.name ≠ d.name) :
    (q.suites.contains b.name = false ∧ q.task? b.name = none) ↔
      (p.suites.contains b.name = false ∧ p.task? b.name = none) := by
  have hc : q.suites.contains b.name = p.suites.contains b.name := by
    rw [Bool.eq_iff_iff, h.contains_iff, or_iff_right hne]
  rw [hc, h.task?_of_ne hne]

/-- Declaring the same suite keeps projects alike. -/
theorem alike (h : d.Declares p q) (h' : d.Declares p' q') (hp : p.Alike p') : q.Alike q' := by
  refine ⟨?_, fun name => ?_⟩
  · rw [h'.rest, h.rest, hp.rest]
  · by_cases hn : name = d.name
    · rw [hn, h.task?_self, h'.task?_self]
    · rw [h.task?_of_ne hn, h'.task?_of_ne hn, hp.task?]

/-- Two suites may be declared in either order. -/
theorem comm (ha : a.Declares p q) (hab : b.Declares q r) (hb : b.Declares p q')
    (hba : a.Declares q' p') : r.Alike p' := by
  have hne : a.name ≠ b.name := by
    intro e
    have hfree := hab.free
    rw [← e, ha.task?_self] at hfree
    cases hfree
  refine ⟨?_, fun name => ?_⟩
  · rw [hba.rest, hb.rest, hab.rest, ha.rest]
    simp only [SortedMap.insert_insert_comm p.suites hne, SortedSet.add_add_comm p.sourceSets
      a.suite.sourceSet]
  · by_cases hna : name = a.name
    · rw [hna, hba.task?_self, hab.task?_of_ne hne, ha.task?_self]
    · rw [hba.task?_of_ne hna]
      by_cases hnb : name = b.name
      · rw [hnb, hb.task?_self, hab.task?_self]
      · rw [hb.task?_of_ne hnb, hab.task?_of_ne hnb, ha.task?_of_ne hna]

end Declaration.Declares

/-- A suite can be declared in a project if it can be in one with other task order, with results that
differ in no more. -/
theorem Alike.declare (h : p.Alike p') (hq : p.declare d = some q) :
    ∃ q', p'.declare d = some q' ∧ q.Alike q' := by
  have hd := declares_of_declare hq
  obtain ⟨q', hq', hd'⟩ := declare_of_free (p := p') (d := d)
    (by rw [h.suites, hd.new]) (by rw [h.task?, hd.free])
  exact ⟨q', hq', hd.alike hd' h⟩

/-- Two suites can be declared in the other order, and only the order of the tasks tells. -/
theorem declare_comm (ha : p.declare a = some q) (hb : q.declare b = some r) :
    ∃ q' r', p.declare b = some q' ∧ q'.declare a = some r' ∧ r.Alike r' := by
  have hda := declares_of_declare ha
  have hdb := declares_of_declare hb
  have hne : b.name ≠ a.name := by
    intro e
    have hfree := hdb.free
    rw [e, hda.task?_self] at hfree
    cases hfree
  obtain ⟨hnew, hfree⟩ := (hda.free_iff hne).mp ⟨hdb.new, hdb.free⟩
  obtain ⟨q', hq', hdb'⟩ := declare_of_free hnew hfree
  obtain ⟨hnew', hfree'⟩ := (hdb'.free_iff hne.symm).mpr ⟨hda.new, hda.free⟩
  obtain ⟨r', hr', hda'⟩ := declare_of_free hnew' hfree'
  exact ⟨q', r', hq', hr', hda.comm hdb hdb' hda'⟩

/-! ## Many declarations -/

/-- The project with suites declared one after the other, if all of that is possible. -/
def declareAll (ds : List Declaration) (p : Project) : Option Project := ds.foldlM declare p

/-- Suites are declared one after the other, and the first failure ends it. -/
theorem declareAll_cons (d : Declaration) (ds : List Declaration) (p : Project) :
    declareAll (d :: ds) p = (p.declare d).bind (declareAll ds) := List.foldlM_cons

/-- A list of suites can be declared if the first one can, and the others after it. -/
theorem declareAll_cons_eq_some {ds : List Declaration} :
    declareAll (d :: ds) p = some q ↔ ∃ m, p.declare d = some m ∧ declareAll ds m = some q := by
  rw [declareAll_cons, Option.bind_eq_some_iff]

/-- Declaring the same suites keeps projects alike. -/
theorem Alike.declareAll {ds : List Declaration} (h : p.Alike p')
    (hq : Project.declareAll ds p = some q) : ∃ q', Project.declareAll ds p' = some q' ∧ q.Alike q' := by
  induction ds generalizing p p' with
  | nil =>
    obtain rfl := Option.some.inj hq
    exact ⟨p', rfl, h⟩
  | cons d ds ih =>
    obtain ⟨m, hm, hq⟩ := declareAll_cons_eq_some.mp hq
    obtain ⟨m', hm', halike⟩ := h.declare hm
    obtain ⟨q', hq', hqq'⟩ := ih halike hq
    exact ⟨q', declareAll_cons_eq_some.mpr ⟨m', hm', hq'⟩, hqq'⟩

/-- Suites may be declared in any order. -/
theorem declareAll_perm {ds ds' : List Declaration} (hp : ds.Perm ds') (hq : declareAll ds p = some q) :
    ∃ q', declareAll ds' p = some q' ∧ q.Alike q' := by
  induction hp generalizing p q with
  | nil => exact ⟨q, hq, .refl q⟩
  | cons d _ ih =>
    obtain ⟨m, hm, hq⟩ := declareAll_cons_eq_some.mp hq
    obtain ⟨q', hq', halike⟩ := ih hq
    exact ⟨q', declareAll_cons_eq_some.mpr ⟨m, hm, hq'⟩, halike⟩
  | swap a b ds =>
    obtain ⟨m, hm, hq⟩ := declareAll_cons_eq_some.mp hq
    obtain ⟨n, hn, hq⟩ := declareAll_cons_eq_some.mp hq
    obtain ⟨m', n', hm', hn', halike⟩ := declare_comm hm hn
    obtain ⟨q', hq', hqq'⟩ := halike.declareAll hq
    exact ⟨q', declareAll_cons_eq_some.mpr
      ⟨m', hm', declareAll_cons_eq_some.mpr ⟨n', hn', hq'⟩⟩, hqq'⟩
  | trans _ _ ih ih' =>
    obtain ⟨m, hm, halike⟩ := ih hq
    obtain ⟨q', hq', halike'⟩ := ih' hm
    exact ⟨q', hq', halike.trans halike'⟩

end Project

end BuildGraph
