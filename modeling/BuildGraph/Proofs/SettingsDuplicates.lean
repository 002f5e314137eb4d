import Mathlib.Data.List.Nodup
import BuildGraph.Settings.File

/-!
# Settings without duplicates

The search for a duplicate keeps the names that it has seen, anew for the suites of each project. It finds
nothing exactly if project paths are distinct and within each project suite names are; two projects may
have suites of the same name. What it finds is the first repetition in the order of the document, where the
path of a project stands before its suites.
-/

namespace BuildGraph.Settings

/-! ## No duplicates -/

/-- No name repeats exactly if all are distinct, and none has been seen before. -/
theorem firstRepeated_eq_none_iff {seen names : List String} :
    firstRepeated seen names = none ↔ names.Nodup ∧ ∀ name ∈ names, name ∉ seen := by
  induction names generalizing seen with
  | nil => simp [firstRepeated]
  | cons name names ih =>
    rw [firstRepeated, List.nodup_cons]
    by_cases h : name ∈ seen
    · simp [h]
    · rw [if_neg h, ih]
      simp only [List.mem_cons, not_or]
      grind

/-- No project repeats exactly if paths are distinct and unseen, and each project's own suites are
distinct. -/
theorem firstDuplicate_eq_none_iff {seen : List String} {projects : List Project} :
    firstDuplicate seen projects = none ↔
      (projects.map (·.path)).Nodup ∧ (∀ project ∈ projects, project.path ∉ seen) ∧
        ∀ project ∈ projects, (project.suites.map (·.name)).Nodup := by
  induction projects generalizing seen with
  | nil => simp [firstDuplicate]
  | cons project projects ih =>
    rw [firstDuplicate, List.map_cons, List.nodup_cons]
    by_cases h : project.path ∈ seen
    · simp [h]
    · rw [if_neg h]
      have hsuites := @firstRepeated_eq_none_iff [] (project.suites.map (·.name))
      cases hr : firstRepeated [] (project.suites.map (·.name)) with
      | none =>
        have hnodup := (hsuites.mp hr).1
        simp only [ih, List.mem_cons, not_or, List.mem_map]
        grind
      | some name =>
        have hnodup : ¬ (project.suites.map (·.name)).Nodup := by
          intro hn
          rw [hsuites.mpr ⟨hn, by simp⟩] at hr
          cases hr
        simp [hnodup]

/-- Settings pass the check exactly if no path occurs twice, and no suite name within a project. -/
theorem duplicate?_eq_none_iff {s : Settings} :
    s.duplicate? = none ↔
      (s.projects.map (·.path)).Nodup ∧ ∀ project ∈ s.projects, (project.suites.map (·.name)).Nodup := by
  rw [duplicate?, firstDuplicate_eq_none_iff]
  simp

/-- Settings that are loaded have passed the check. -/
theorem duplicate?_of_load {files : Files} {path : String} {s : Settings} (h : load files path = .ok s) :
    s.duplicate? = none := by
  unfold load at h
  split at h
  · cases h
  · split at h
    · cases h
    · split at h
      · cases h
      · rename_i hnone
        obtain rfl := Except.ok.inj h
        exact hnone

/-! ## The first duplicate -/

/-- A search that keeps the keys of what it has passed finds what its first hit makes of the keys of
everything in front of it. -/
theorem search_eq_some_iff {α β κ : Type} {search : List κ → List α → Option β} {key : α → κ}
    {hit : List κ → α → Option β} (hnil : ∀ seen, search seen [] = none)
    (hcons : ∀ seen x xs, search seen (x :: xs) = (hit seen x).or (search (key x :: seen) xs))
    {seen : List κ} {xs : List α} {found : β} :
    search seen xs = some found ↔
      ∃ before x after, xs = before ++ x :: after ∧ search seen before = none ∧
        hit ((before.map key).reverse ++ seen) x = some found := by
  induction xs generalizing seen with
  | nil => simp [hnil]
  | cons x xs ih =>
    rw [hcons]
    cases hx : hit seen x with
    | some first =>
      rw [Option.some_or]
      constructor
      · intro h
        obtain rfl := Option.some.inj h
        exact ⟨[], x, xs, rfl, hnil seen, hx⟩
      · rintro ⟨before, y, after, hsplit, hnone, hy⟩
        cases before with
        | nil =>
          obtain ⟨rfl, -⟩ := List.cons.inj hsplit
          exact hx.symm.trans hy
        | cons z before =>
          obtain ⟨rfl, -⟩ := List.cons.inj hsplit
          rw [hcons, hx] at hnone
          cases hnone
    | none =>
      rw [Option.none_or, ih]
      constructor
      · rintro ⟨before, y, after, rfl, hnone, hy⟩
        refine ⟨x :: before, y, after, rfl, ?_, ?_⟩
        · rw [hcons, hx]
          exact hnone
        · simpa using hy
      · rintro ⟨before, y, after, hsplit, hnone, hy⟩
        cases before with
        | nil =>
          obtain ⟨rfl, -⟩ := List.cons.inj hsplit
          cases hx.symm.trans hy
        | cons z before =>
          obtain ⟨rfl, rfl⟩ := List.cons.inj hsplit
          rw [hcons, hx] at hnone
          exact ⟨before, y, after, rfl, hnone, by simpa using hy⟩

/-- Whether something is the first in a list that has come before. -/
def IsFirstRepeat {α : Type} (x : α) (l : List α) : Prop :=
  ∃ before after, l = before ++ x :: after ∧ before.Nodup ∧ x ∈ before

/-- A list has at most one first repetition. -/
theorem IsFirstRepeat.unique {α : Type} {x y : α} {l : List α} (hx : IsFirstRepeat x l)
    (hy : IsFirstRepeat y l) : x = y := by
  obtain ⟨before, after, rfl, hnodup, hm⟩ := hx
  obtain ⟨before', after', hsplit, hnodup', hm'⟩ := hy
  rcases List.append_eq_append_iff.mp hsplit with ⟨between, rfl, h⟩ | ⟨between, rfl, h⟩
  -- whichever of the two came later would have the other one twice in front of it
  all_goals cases between with
    | nil => simp_all
    | cons z between => grind [List.nodup_append]

/-- The search for a repeated name stops at the first one in the list. -/
theorem firstRepeated_eq_some_iff {names : List String} {name : String} :
    firstRepeated [] names = some name ↔ IsFirstRepeat name names := by
  have hcons : ∀ seen name names, firstRepeated seen (name :: names) =
      (if name ∈ seen then some name else none).or (firstRepeated (id name :: seen) names) := by
    intro seen name names
    rw [firstRepeated]
    split <;> rfl
  rw [search_eq_some_iff (fun _ => rfl) hcons]
  simp only [firstRepeated_eq_none_iff]
  constructor
  · rintro ⟨before, x, after, rfl, ⟨hnodup, _⟩, hx⟩
    split at hx
    · rename_i hm
      obtain rfl := Option.some.inj hx
      exact ⟨before, after, rfl, hnodup, by simpa using hm⟩
    · cases hx
  · rintro ⟨before, after, rfl, hnodup, hm⟩
    exact ⟨before, name, after, rfl, ⟨hnodup, by simp⟩, if_pos (by simpa using hm)⟩

/-- How a project that stands behind others repeats a name. Its path is the path of one of them, or else a
suite has the name of an earlier suite of the project. -/
inductive Repeats (paths : List String) (project : Project) : Duplicate → Prop
  | path (h : project.path ∈ paths) : Repeats paths project (.project project.path)
  | suite {name : String} (h : project.path ∉ paths)
    (hname : IsFirstRepeat name (project.suites.map (·.name))) :
    Repeats paths project (.suite project.path name)

/-- The name that a project repeats. -/
def repetition? (seen : List String) (project : Project) : Option Duplicate :=
  if project.path ∈ seen then some (.project project.path)
  else (firstRepeated [] (project.suites.map (·.name))).map (.suite project.path)

/-- A project repeats its path, or else the first suite name that comes again. -/
theorem repetition?_eq_some_iff {seen : List String} {project : Project} {d : Duplicate} :
    repetition? seen project = some d ↔ Repeats seen project d := by
  unfold repetition?
  split
  · rename_i hm
    constructor
    · intro h
      obtain rfl := Option.some.inj h
      exact .path hm
    · intro h
      cases h with
      | path _ => rfl
      | suite h _ => exact absurd hm h
  · rename_i hm
    rw [Option.map_eq_some_iff]
    constructor
    · rintro ⟨name, hname, rfl⟩
      exact .suite hm (firstRepeated_eq_some_iff.mp hname)
    · intro h
      cases h with
      | path h => exact absurd h hm
      | suite _ hname => exact ⟨_, firstRepeated_eq_some_iff.mpr hname, rfl⟩

/-- A project is searched in full before the next one, and its path counts as seen from then on. -/
theorem firstDuplicate_cons (seen : List String) (project : Project) (projects : List Project) :
    firstDuplicate seen (project :: projects) =
      (repetition? seen project).or (firstDuplicate (project.path :: seen) projects) := by
  rw [firstDuplicate, repetition?]
  split
  · rfl
  · cases firstRepeated [] (project.suites.map (·.name)) <;> rfl

/-- Whether no path occurs twice, and no suite name within a project. -/
structure NoRepeats (projects : List Project) : Prop where
  paths : (projects.map (·.path)).Nodup
  suites : ∀ project ∈ projects, (project.suites.map (·.name)).Nodup

/-- The search finds nothing exactly if there are no repetitions. -/
theorem firstDuplicate_eq_none_iff_noRepeats {projects : List Project} :
    firstDuplicate [] projects = none ↔ NoRepeats projects := by
  rw [firstDuplicate_eq_none_iff]
  constructor
  · rintro ⟨hpaths, _, hsuites⟩
    exact ⟨hpaths, hsuites⟩
  · rintro ⟨hpaths, hsuites⟩
    exact ⟨hpaths, by simp, hsuites⟩

/-- The first duplicate comes from the first project that repeats a name. -/
theorem firstDuplicate_eq_some_iff {projects : List Project} {d : Duplicate} :
    firstDuplicate [] projects = some d ↔
      ∃ before project after, projects = before ++ project :: after ∧ NoRepeats before ∧
        Repeats (before.map (·.path)) project d := by
  have hpaths : ∀ {before : List Project} {project},
      Repeats ((before.map (·.path)).reverse ++ []) project d ↔
        Repeats (before.map (·.path)) project d := by
    intro before project
    constructor <;> intro h <;> cases h with
    | path h => exact .path (by simpa using h)
    | suite h hname => exact .suite (by simpa using h) hname
  rw [search_eq_some_iff (fun _ => rfl) firstDuplicate_cons]
  simp only [firstDuplicate_eq_none_iff_noRepeats, repetition?_eq_some_iff, hpaths]

/-! ## The order of the document -/

/-- The path of the project that a name belongs to. -/
def Duplicate.projectPath : Duplicate → String
  | .project path => path
  | .suite path _ => path

/-- What a project declares: its path, then its suites. -/
def Project.declared (project : Project) : List Duplicate :=
  .project project.path :: (project.suites.map (·.name)).map (.suite project.path)

/-- What projects declare, in the order of the document. -/
def declared (projects : List Project) : List Duplicate := projects.flatMap (·.declared)

/-- All that a project declares belongs to its path. -/
theorem projectPath_of_mem_declared {project : Project} {d : Duplicate} (h : d ∈ project.declared) :
    d.projectPath = project.path := by
  rcases List.mem_cons.mp h with rfl | h
  · rfl
  · obtain ⟨_, _, rfl⟩ := List.mem_map.mp h
    rfl

/-- What projects declare belongs to the path of one of them. -/
theorem projectPath_mem_of_mem_declared {projects : List Project} {d : Duplicate}
    (h : d ∈ declared projects) : d.projectPath ∈ projects.map (·.path) := by
  obtain ⟨project, hp, hd⟩ := List.mem_flatMap.mp h
  rw [projectPath_of_mem_declared hd]
  exact List.mem_map_of_mem hp

/-- Suites with different names are different declarations. -/
theorem nodup_map_suite {names : List String} (h : names.Nodup) (path : String) :
    (names.map (Duplicate.suite path)).Nodup :=
  h.map fun _ _ e => (Duplicate.suite.inj e).2

/-- Without repetitions nothing is declared twice, though projects may share names of suites. -/
theorem nodup_declared {projects : List Project} (h : NoRepeats projects) :
    (declared projects).Nodup := by
  rw [declared, List.nodup_flatMap]
  refine ⟨fun project hp => ?_, ?_⟩
  · rw [Project.declared, List.nodup_cons]
    exact ⟨by simp, nodup_map_suite (h.suites project hp) project.path⟩
  · refine (List.pairwise_map.mp (List.nodup_iff_pairwise_ne.mp h.paths)).imp fun {p q} hne => ?_
    refine List.disjoint_left.mpr fun d (hp : d ∈ p.declared) (hq : d ∈ q.declared) => hne ?_
    exact (projectPath_of_mem_declared hp).symm.trans (projectPath_of_mem_declared hq)

/-- A project that repeats a name declares something again, and everything in front of that is new. -/
theorem Repeats.isFirstRepeat {before after : List Project} {project : Project} {d : Duplicate}
    (hb : NoRepeats before) (h : Repeats (before.map (·.path)) project d) :
    IsFirstRepeat d (declared (before ++ project :: after)) := by
  have hsplit : declared (before ++ project :: after) =
      declared before ++ (.project project.path ::
        (project.suites.map (·.name)).map (.suite project.path)) ++ declared after := by
    simp [declared, Project.declared]
  rw [hsplit]
  cases h with
  | path h =>
    obtain ⟨earlier, he, hpath⟩ := List.mem_map.mp h
    refine ⟨declared before, _, by simp; rfl, nodup_declared hb, ?_⟩
    rw [← hpath]
    exact List.mem_flatMap.mpr ⟨earlier, he, List.mem_cons_self ..⟩
  | @suite name h hname =>
    obtain ⟨front, back, hnames, hnodup, hm⟩ := hname
    have hnew : ∀ {e : Duplicate}, e.projectPath = project.path → e ∉ declared before := by
      intro e he hmem
      rw [← he] at h
      exact h (projectPath_mem_of_mem_declared hmem)
    refine ⟨declared before ++ .project project.path :: front.map (.suite project.path),
      back.map (.suite project.path) ++ declared after, by simp [hnames], ?_, ?_⟩
    · refine List.nodup_append.mpr ⟨nodup_declared hb, ?_, ?_⟩
      · exact List.nodup_cons.mpr ⟨by simp, nodup_map_suite hnodup project.path⟩
      · rintro e he _ hother rfl
        refine hnew ?_ he
        rcases List.mem_cons.mp hother with rfl | hother
        · rfl
        · obtain ⟨_, _, rfl⟩ := List.mem_map.mp hother
          rfl
    · exact List.mem_append_right _ (List.mem_cons_of_mem _ (List.mem_map_of_mem hm))

/-- Settings pass the check exactly if no path occurs twice, and no suite name within a project. Otherwise
the duplicate comes from the first project that repeats a name: its path if that is the path of an earlier
project, and else the first suite name that an earlier suite of the same project has. It is the first
thing in the document that has been declared before, in which suites of two projects are two things. -/
theorem duplicate?_exact (s : Settings) :
    (s.duplicate? = none ↔
      (s.projects.map (·.path)).Nodup ∧
        ∀ project ∈ s.projects, (project.suites.map (·.name)).Nodup) ∧
    (∀ d, s.duplicate? = some d ↔
      ∃ before project after, s.projects = before ++ project :: after ∧ NoRepeats before ∧
        Repeats (before.map (·.path)) project d) ∧
    ∀ d, s.duplicate? = some d ↔ IsFirstRepeat d (declared s.projects) := by
  refine ⟨duplicate?_eq_none_iff, fun d => firstDuplicate_eq_some_iff, fun d => ?_⟩
  have hfound : ∀ {e}, s.duplicate? = some e → IsFirstRepeat e (declared s.projects) := by
    intro e he
    obtain ⟨before, project, after, hsplit, hb, hr⟩ := firstDuplicate_eq_some_iff.mp he
    rw [hsplit]
    exact hr.isFirstRepeat hb
  refine ⟨hfound, fun hd => ?_⟩
  cases he : s.duplicate? with
  | some e => rw [(hfound he).unique hd]
  | none =>
    obtain ⟨before, after, hsplit, _, hm⟩ := hd
    have hnodup := nodup_declared (firstDuplicate_eq_none_iff_noRepeats.mp he)
    rw [hsplit] at hnodup
    exact absurd hm ((List.nodup_middle.mp hnodup).notMem ∘ List.mem_append_left after)

/-- Two projects may have suites of one name, and a path that comes again later is not the first. -/
example :
    let s : Settings := { projects := [
      { path := ":a", suites := [{ name := "slow" }] },
      { path := ":b", suites := [{ name := "slow" }, { name := "it" }, { name := "it" }] },
      { path := ":a", suites := [{ name := "it" }, { name := "it" }] }] }
    s.duplicate? = some (.suite ":b" "it") := by
  decide

end BuildGraph.Settings
