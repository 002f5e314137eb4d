import BuildGraph.Proofs.MatrixOutputs
import BuildGraph.Proofs.MatrixProjects

/-!
# Default build directories

A project that names no build directory builds below a directory for each segment of its path, into `build`,
and a matrix project into a directory of its secondary value in there. Segments have no slashes, and a
secondary value starts with a digit, so that it is not mistaken for `build`. The directory therefore tells
every segment that says something, and the secondary value. Only dots say nothing: two projects share a
directory exactly if their paths differ in dots alone and they have one secondary value or none.
-/

namespace BuildGraph

/-! ## Joining several parts -/

namespace Path

variable {base part : String} {parts others : List String}

/-- Whether a text may stand between the slashes of a path. -/
structure IsPart (part : String) : Prop where
  noSlash : '/' ∉ part.toList
  nonempty : part.toList ≠ []

instance (part : String) : Decidable (IsPart part) :=
  decidable_of_iff ('/' ∉ part.toList ∧ part.toList ≠ [])
    ⟨fun h => ⟨h.1, h.2⟩, fun h => ⟨h.noSlash, h.nonempty⟩⟩

/-- The name of a component may stand between slashes. -/
theorem IsName.isPart (h : IsName part) : IsPart part := ⟨h.noSlash, h.nonempty⟩

namespace IsPart

theorem isAbsolute (h : IsPart part) : isAbsolute part = false := isAbsolute_of_not_mem h.noSlash

/-- Joining a part puts it behind a slash; a part never starts at the root. -/
theorem join (h : IsPart part) (base : String) : join base part = opened base ++ part :=
  join_eq h.isAbsolute base

/-- After a part, a path needs a slash for the next one. -/
theorem opened_join (h : IsPart part) (base : String) :
    opened (Path.join base part) = opened base ++ (part ++ "/") := by
  have hne : part ≠ "" := fun e => h.nonempty (congrArg String.toList e)
  have hclosed : isOpen (opened base ++ part) = false := by
    rw [isOpen_append hne, isOpen_of_not_mem hne h.noSlash]
  rw [h.join, opened, hclosed, String.append_assoc]
  rfl

/-- A part does not change where a path starts. -/
theorem isAbsolute_join (h : IsPart part) (base : String) :
    Path.isAbsolute (Path.join base part) = Path.isAbsolute base := by
  rw [h.join]
  by_cases hb : base = ""
  · rw [hb, show opened "" = "" by decide, String.empty_append, h.isAbsolute]
    rfl
  · obtain ⟨start, hs⟩ := opened_eq_append hb
    have hne : opened base ≠ "" := by simp [hs]
    rw [isAbsolute_append_of_ne hne, isAbsolute_opened hb]

end IsPart

/-- Parts are joined with slashes between them. -/
theorem foldl_join_eq (hne : parts ≠ []) (h : ∀ part ∈ parts, IsPart part) (base : String) :
    parts.foldl join base = opened base ++ "/".intercalate parts := by
  induction parts generalizing base with
  | nil => exact absurd rfl hne
  | cons part parts ih =>
    obtain ⟨hpart, hparts⟩ := List.forall_mem_cons.mp h
    cases parts with
    | nil => simp [hpart.join]
    | cons next parts =>
      rw [List.foldl_cons, ih (List.cons_ne_nil next parts) hparts, hpart.opened_join,
        String.intercalate_cons_cons, String.append_assoc]

/-- Cutting at slashes gives back the parts that slashes have joined. -/
theorem fields_intercalate_parts (hne : parts ≠ []) (h : ∀ part ∈ parts, IsPart part) :
    Text.fields '/' ("/".intercalate parts).toList = parts.map String.toList := by
  rw [String.toList_intercalate]
  refine Text.fields_intercalate (by simpa using hne) fun piece hp => ?_
  obtain ⟨part, hm, rfl⟩ := List.mem_map.mp hp
  exact (h part hm).noSlash

/-- Texts are told apart by their characters, and so are lists of texts. -/
theorem map_toList_injective {xs ys : List String} (h : xs.map String.toList = ys.map String.toList) :
    xs = ys :=
  List.map_injective_iff.mpr (fun _ _ => String.toList_injective) h

/-- Parts do not change where a path starts. -/
theorem isAbsolute_foldl_join (h : ∀ part ∈ parts, IsPart part) (base : String) :
    isAbsolute (parts.foldl join base) = isAbsolute base := by
  induction parts generalizing base with
  | nil => rfl
  | cons part parts ih =>
    obtain ⟨hpart, hparts⟩ := List.forall_mem_cons.mp h
    rw [List.foldl_cons, ih hparts, hpart.isAbsolute_join]

/-- The parts that say something behind a path. A dot says something only where a path starts with it. -/
def visible (base : String) : List String → List String
  | [] => []
  | first :: rest => (if base = "" then [first] else [first].filter (· ≠ ".")) ++ rest.filter (· ≠ ".")

/-- Without dots every part says something. -/
theorem visible_eq_self (h : "." ∉ parts) (base : String) : visible base parts = parts := by
  have hfilter : ∀ xs : List String, "." ∉ xs → xs.filter (· ≠ ".") = xs := fun xs hdot =>
    List.filter_eq_self.mpr fun part hm => decide_eq_true fun e => hdot (e ▸ hm)
  cases parts with
  | nil => rfl
  | cons first rest =>
    have hfirst : "." ∉ [first] := fun hm => h (List.mem_of_mem_head? (List.mem_singleton.mp hm ▸ rfl))
    rw [visible, hfilter rest fun hm => h (List.mem_cons_of_mem first hm), hfilter [first] hfirst, ite_self]
    rfl

/-- What stands behind the first parts says something unless it is a dot. -/
theorem visible_append (hne : parts ≠ []) (base : String) (others : List String) :
    visible base (parts ++ others) = visible base parts ++ others.filter (· ≠ ".") := by
  obtain ⟨first, rest, rfl⟩ := List.exists_cons_of_ne_nil hne
  rw [List.cons_append, visible, visible, List.filter_append, List.append_assoc]

/-- Of parts, which are never empty, only dots say nothing. -/
theorem proper_map_toList (h : ∀ part ∈ parts, IsPart part) :
    proper (parts.map String.toList) = (parts.filter (· ≠ ".")).map String.toList := by
  rw [proper, List.filter_map]
  refine congrArg (List.map String.toList) (List.filter_congr fun part hm => ?_)
  have hdot : part.toList = ['.'] ↔ part = "." := by
    rw [← String.toList_inj]
    rfl
  simp [(h part hm).nonempty, hdot]

/-- The names in a joined path are those of the base and then the parts that say something. -/
theorem names_foldl_join (hne : parts ≠ []) (h : ∀ part ∈ parts, IsPart part) (base : String) :
    names (parts.foldl join base) = names base ++ (visible base parts).map String.toList := by
  rw [foldl_join_eq hne h, names_opened_append, fields_intercalate_parts hne h]
  obtain ⟨first, rest, rfl⟩ := List.exists_cons_of_ne_nil hne
  obtain ⟨hfirst, hrest⟩ := List.forall_mem_cons.mp h
  split
  · rename_i hb
    have hempty : names "" = [] := by decide
    rw [names, fields_intercalate_parts hne h, visible, hb, if_pos rfl, hempty]
    change [first.toList].filter (· ≠ []) ++ proper (rest.map String.toList) = _
    rw [proper_map_toList hrest]
    simp [hfirst.nonempty]
  · rename_i hb
    rw [proper_map_toList h, visible, if_neg hb, ← List.filter_append, List.singleton_append]

/-- Two runs of parts lead to one place exactly if the same parts say something. -/
theorem components_foldl_join_iff (hne : parts ≠ []) (hne' : others ≠ [])
    (h : ∀ part ∈ parts, IsPart part) (h' : ∀ part ∈ others, IsPart part) :
    components (parts.foldl join base) = components (others.foldl join base) ↔
      visible base parts = visible base others := by
  rw [components, components, isAbsolute_foldl_join h, isAbsolute_foldl_join h', names_foldl_join hne h,
    names_foldl_join hne' h']
  constructor
  · intro heq
    exact map_toList_injective (List.append_cancel_left (Prod.mk.inj heq).2)
  · intro heq
    rw [heq]

end Path

namespace Workspace

open BuildGraph.Path

variable {c : Context} {settings : Settings.Matrix} {spec s t : Settings.Project} {p q : Project}
  {path value : String} {segments ss ts : List String}

/-! ## Paths of segments -/

/-- Whether a project path is made of segments: a colon, and at least one segment, with colons between
them. -/
structure Segmented (path : String) (segments : List String) : Prop where
  text : path = ":" ++ ":".intercalate segments
  nonempty : segments ≠ []
  isPart : ∀ segment ∈ segments, IsPart segment
  noColon : ∀ segment ∈ segments, ':' ∉ segment.toList

instance (path : String) (segments : List String) : Decidable (Segmented path segments) :=
  decidable_of_iff (path = ":" ++ ":".intercalate segments ∧ segments ≠ [] ∧
      (∀ segment ∈ segments, IsPart segment) ∧ ∀ segment ∈ segments, ':' ∉ segment.toList)
    ⟨fun h => ⟨h.1, h.2.1, h.2.2.1, h.2.2.2⟩, fun h => ⟨h.text, h.nonempty, h.isPart, h.noColon⟩⟩

namespace Segmented

/-- A segmented path is a colon and its segments with colons between them, character by character. -/
theorem toList (h : Segmented path segments) :
    path.toList = ':' :: [':'].intercalate (segments.map String.toList) := by
  rw [h.text, String.toList_append, String.toList_intercalate]
  rfl

/-- Cutting a segmented path at colons gives back its segments. -/
theorem fields (h : Segmented path segments) :
    (Text.fields ':' path.toList).filter (!·.isEmpty) = segments.map String.toList := by
  have hpieces : Text.fields ':' ([':'].intercalate (segments.map String.toList)) =
      segments.map String.toList := by
    refine Text.fields_intercalate (by simpa using h.nonempty) fun piece hp => ?_
    obtain ⟨segment, hm, rfl⟩ := List.mem_map.mp hp
    exact h.noColon segment hm
  rw [h.toList, Text.fields, if_pos rfl, hpieces, List.filter_cons_of_neg (by simp), List.filter_eq_self]
  intro piece hp
  obtain ⟨segment, hm, rfl⟩ := List.mem_map.mp hp
  simpa using (h.isPart segment hm).nonempty

/-- A segmented path has no slash, as none of its segments has. -/
theorem noSlash (h : Segmented path segments) : '/' ∉ path.toList := by
  rw [h.toList]
  refine List.not_mem_cons_of_ne_of_not_mem (by decide) ?_
  refine Text.not_mem_intercalate (by decide) fun piece hp => ?_
  obtain ⟨segment, hm, rfl⟩ := List.mem_map.mp hp
  exact (h.isPart segment hm).noSlash

/-- The default directory is the segments and `build` joined to the root, part by part. -/
theorem defaultBuildDir (h : Segmented path segments) (root : String) :
    defaultBuildDir root path = (segments ++ ["build"]).foldl join root := by
  rw [Workspace.defaultBuildDir, h.fields, List.foldl_map, List.foldl_append]
  simp

end Segmented

/-! ## Directories -/

/-- The secondary value of a path without slashes names a directory, which is not `build`. -/
theorem isName_of_matrixValue? (hp : '/' ∉ spec.path.toList)
    (h : matrixValue? spec.path settings = some value) : IsName value ∧ value ≠ "build" := by
  obtain ⟨cell, hcell, rfl⟩ := Option.map_eq_some_iff.mp h
  refine ⟨isName_of_matrixCell? hp hcell, fun e => ?_⟩
  have hdigit := startsWithDigit_of_matrixValue? h
  rw [e] at hdigit
  exact absurd hdigit (by decide)

/-- The segments, `build` and the secondary value are joined to the root, one after the other. -/
theorem buildDir_of_segmented (hd : spec.buildDir = none) (h : Segmented spec.path segments) :
    buildDir c spec =
      (segments ++ "build" :: (matrixValue? spec.path c.settings.matrix).toList).foldl join c.root := by
  rw [buildDir_eq, homeDir, hd, h.defaultBuildDir]
  cases matrixValue? spec.path c.settings.matrix with
  | none => rfl
  | some value => simp

/-- What stands in front of the last `build` can be told, and so can what stands behind it. -/
theorem append_build_eq_iff {xs ys : List String} {v w : Option String} (hv : ∀ x ∈ v, x ≠ "build")
    (hw : ∀ x ∈ w, x ≠ "build") :
    xs ++ "build" :: v.toList = ys ++ "build" :: w.toList ↔ xs = ys ∧ v = w := by
  have hlast : ∀ (zs : List String) (u : Option String),
      (zs ++ "build" :: u.toList).getLast? = some (u.getD "build") := by
    intro zs u
    cases u <;> simp
  constructor
  · intro h
    have hget : v.getD "build" = w.getD "build" := by
      rw [← Option.some_inj, ← hlast xs, h, hlast]
    obtain rfl : v = w := by
      cases v <;> cases w <;> simp_all
    exact ⟨List.append_cancel_right h, rfl⟩
  · rintro ⟨rfl, rfl⟩
    rfl

namespace Segmented

variable (h : Segmented spec.path segments)

include h

/-- A segmented path has parts only, and so does its build directory below the root. -/
theorem isPart_buildDir :
    ∀ part ∈ segments ++ "build" :: (matrixValue? spec.path settings).toList, IsPart part := by
  intro part hm
  rcases List.mem_append.mp hm with hm | hm
  · exact h.isPart part hm
  · rcases List.mem_cons.mp hm with rfl | hm
    · exact ⟨by decide, by decide⟩
    · exact (isName_of_matrixValue? h.noSlash (Option.mem_toList.mp hm)).1.isPart

/-- No secondary value is called as the directory that it goes into. -/
theorem matrixValue?_ne_build : ∀ value ∈ matrixValue? spec.path settings, value ≠ "build" :=
  fun _ hv => (isName_of_matrixValue? h.noSlash hv).2

/-- Of a build directory only segments may say nothing. -/
theorem visible_buildDir (root : String) :
    visible root (segments ++ "build" :: (matrixValue? spec.path settings).toList) =
      visible root segments ++ "build" :: (matrixValue? spec.path settings).toList := by
  rw [visible_append h.nonempty]
  refine congrArg _ (List.filter_eq_self.mpr fun part hm => ?_)
  rcases List.mem_cons.mp hm with rfl | hm
  · decide
  · have hname := (isName_of_matrixValue? h.noSlash (Option.mem_toList.mp hm)).1
    simpa [← String.toList_inj] using hname.noDot

end Segmented

/-- The default build directories of two projects with paths of segments are one place exactly if the paths
differ in dots only, which are segments that say nothing unless a path starts with them, and both projects
are made for one secondary value or for none. Projects with different paths without dots are apart. -/
theorem default_buildDirs_apart (hs : s.buildDir = none) (ht : t.buildDir = none)
    (hss : Segmented s.path ss) (hts : Segmented t.path ts) (hp : buildProject c s = .ok p)
    (hq : buildProject c t = .ok q) :
    (components p.buildDir = components q.buildDir ↔
        visible c.root ss = visible c.root ts ∧
          matrixValue? s.path c.settings.matrix = matrixValue? t.path c.settings.matrix) ∧
      ("." ∉ ss → "." ∉ ts → s.path ≠ t.path → components p.buildDir ≠ components q.buildDir) := by
  have hplaces : components p.buildDir = components q.buildDir ↔
      visible c.root ss = visible c.root ts ∧
        matrixValue? s.path c.settings.matrix = matrixValue? t.path c.settings.matrix := by
    rw [buildDir_of_buildProject hp, buildDir_of_buildProject hq, buildDir_of_segmented hs hss,
      buildDir_of_segmented ht hts, components_foldl_join_iff (by simp) (by simp) hss.isPart_buildDir
        hts.isPart_buildDir, hss.visible_buildDir, hts.visible_buildDir,
      append_build_eq_iff hss.matrixValue?_ne_build hts.matrixValue?_ne_build]
  refine ⟨hplaces, fun hsdot htdot hne h => ?_⟩
  have hvisible := (hplaces.mp h).1
  rw [visible_eq_self hsdot, visible_eq_self htdot] at hvisible
  rw [hss.text, hts.text, hvisible] at hne
  exact hne rfl

/-- What a workspace of two projects shows of them. -/
theorem exists_of_map_pair {β : Type} {f : Project → β} {a b : β}
    (h : (buildProjects c).map (·.map f) = .ok [a, b]) :
    ∃ p q, buildProjects c = .ok [p, q] ∧ f p = a ∧ f q = b := by
  obtain ⟨projects, hb, heq⟩ := except_map_ok h
  obtain ⟨p, rest, rfl, hp, hrest⟩ := List.map_eq_cons_iff.mp heq.symm
  obtain ⟨q, rfl, hq⟩ := List.map_eq_singleton_iff.mp hrest
  exact ⟨p, q, hb, hp, hq⟩

/-- A matrix project, and one below it that is called as its directory of output. -/
def buildSegmentSample : Context :=
  .new "/work" { projects := [{ path := ":spark-3.3_2.12" }, { path := ":spark-3.3_2.12:build" }] } {}
    .default

/-- The directory of the second project starts as that of the first, and yet they are apart. -/
theorem buildSegmentSample_apart :
    ∃ p q, buildProjects buildSegmentSample = .ok [p, q] ∧
      p.buildDir = "/work/spark-3.3_2.12/build/2.12" ∧
      q.buildDir = "/work/spark-3.3_2.12/build/build/2.12:build" ∧
      components p.buildDir ≠ components q.buildDir := by
  have hdirs : (buildProjects buildSegmentSample).map (·.map (·.buildDir)) =
      .ok ["/work/spark-3.3_2.12/build/2.12", "/work/spark-3.3_2.12/build/build/2.12:build"] := by decide
  have hplain : Segmented ":spark-3.3_2.12" ["spark-3.3_2.12"] := by decide
  have hbelow : Segmented ":spark-3.3_2.12:build" ["spark-3.3_2.12", "build"] := by decide
  obtain ⟨p, q, h, hpdir, hqdir⟩ := exists_of_map_pair hdirs
  have hzip : buildSegmentSample.settings.projects.zip [p, q] =
      [({ path := ":spark-3.3_2.12" }, p), ({ path := ":spark-3.3_2.12:build" }, q)] := rfl
  have hp := buildProject_of_mem_zip h (hzip ▸ List.mem_cons_self ..)
  have hq := buildProject_of_mem_zip h (hzip ▸ List.mem_cons_of_mem _ (List.mem_cons_self ..))
  obtain ⟨-, hapart⟩ := default_buildDirs_apart rfl rfl hplain hbelow hp hq
  exact ⟨p, q, h, hpdir, hqdir, hapart (by decide) (by decide) (by decide)⟩

/-- A matrix project whose path starts with a dot, and one whose path does not. -/
def dottedPathSample : Context :=
  .new "/work" { projects := [{ path := ":spark-3.3_2.12" }, { path := ":.:spark-3.3_2.12" }] } {}
    .default

/-- Their paths are made of segments and differ, but both build into one place. -/
theorem dottedPathSample_shares_buildDir :
    Segmented ":spark-3.3_2.12" ["spark-3.3_2.12"] ∧
      Segmented ":.:spark-3.3_2.12" [".", "spark-3.3_2.12"] ∧
      ∃ p q, buildProjects dottedPathSample = .ok [p, q] ∧
        p.path = ":spark-3.3_2.12" ∧ q.path = ":.:spark-3.3_2.12" ∧
        p.buildDir = "/work/spark-3.3_2.12/build/2.12" ∧
        q.buildDir = "/work/./spark-3.3_2.12/build/2.12" ∧
        components p.buildDir = components q.buildDir := by
  have hrun : (buildProjects dottedPathSample).map (·.map fun p => (p.path, p.buildDir)) =
      .ok [(":spark-3.3_2.12", "/work/spark-3.3_2.12/build/2.12"),
        (":.:spark-3.3_2.12", "/work/./spark-3.3_2.12/build/2.12")] := by decide
  obtain ⟨p, q, h, hp, hq⟩ := exists_of_map_pair hrun
  obtain ⟨hppath, hpdir⟩ := Prod.mk.inj hp
  obtain ⟨hqpath, hqdir⟩ := Prod.mk.inj hq
  refine ⟨by decide, by decide, p, q, h, hppath, hqpath, hpdir, hqdir, ?_⟩
  rw [hpdir, hqdir]
  decide +kernel

end Workspace

end BuildGraph
