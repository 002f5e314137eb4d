import BuildGraph.Proofs.BuiltProject
import BuildGraph.Proofs.MatrixNames

/-!
# Matrix projects below other projects

A project is made for a matrix cell if its path ends in one with a number for its secondary value, and it
builds into a directory of that value. The cell is searched for in the whole path. What stands behind the
last dash may therefore begin in the name of a parent: a project below a matrix project may be taken for a
cell itself, with its own name in the secondary value, and the cell of a project may go unnoticed because of
an underscore in its parent.
-/

namespace BuildGraph

/-! ## Secondary values -/

namespace MatrixCell

variable {cs ds segment name : List Char}

/-- The secondary value that a segment shows: what stands behind its only underscore, if it starts with a
digit. -/
def shownValue? (segment : List Char) : Option (List Char) :=
  match Text.fields '_' segment with
  | [_, value] => if startsWithDigit value then some value else none
  | _ => none

/-- Without an underscore no secondary value is shown. -/
theorem shownValue?_of_not_mem (h : '_' ∉ segment) : shownValue? segment = none := by
  rw [shownValue?, Text.fields_of_not_mem h]

/-- What stands before the underscore does not count. -/
theorem shownValue?_append_of_not_mem (h : '_' ∉ cs) (ds : List Char) :
    shownValue? (cs ++ ds) = shownValue? ds := by
  obtain ⟨first, rest, hf, hfront⟩ := Text.fields_append_of_not_mem h ds
  rw [shownValue?, shownValue?, hf, hfront]
  rcases rest with _ | ⟨value, _ | ⟨next, rest⟩⟩ <;> rfl

/-- Behind the first underscore there has to be a text without another one that starts with a digit. -/
theorem shownValue?_append_cons (h : '_' ∉ cs) (ds : List Char) :
    shownValue? (cs ++ '_' :: ds) = if '_' ∉ ds ∧ startsWithDigit ds then some ds else none := by
  rw [shownValue?, Text.fields_append, Text.fields_of_not_mem h]
  by_cases hd : '_' ∈ ds
  · obtain ⟨before, after, rfl⟩ := List.append_of_mem hd
    obtain ⟨first, rest, hfirst⟩ := List.exists_cons_of_ne_nil (Text.fields_ne_nil '_' before)
    obtain ⟨next, later, hnext⟩ := List.exists_cons_of_ne_nil (Text.fields_ne_nil '_' after)
    rw [Text.fields_append, hfirst, hnext, if_neg (fun hc => hc.1 hd)]
    cases rest <;> rfl
  · rw [Text.fields_of_not_mem hd]
    simp [hd]

/-- What comes behind a colon does not change how a text starts. -/
theorem startsWithDigit_append_colon (ds name : List Char) :
    startsWithDigit (ds ++ ':' :: name) = startsWithDigit ds := by
  cases ds <;> rfl

/-- A name that is added to a segment with an underscore leaves no value if it has one as well, and otherwise
becomes a part of the value. -/
theorem shownValue?_append_colon (h : '_' ∈ segment) (name : List Char) :
    shownValue? (segment ++ ':' :: name) =
      if '_' ∈ name then none else (shownValue? segment).map (· ++ ':' :: name) := by
  obtain ⟨cs, ds, rfl, hcs⟩ := List.eq_append_cons_of_mem h
  rw [List.append_assoc, List.cons_append, shownValue?_append_cons hcs, shownValue?_append_cons hcs,
    startsWithDigit_append_colon]
  by_cases hname : '_' ∈ name
  · rw [if_pos hname, if_neg (fun hv => hv.1 (by simp [hname]))]
  · rw [if_neg hname]
    by_cases hvalue : '_' ∉ ds ∧ startsWithDigit ds
    · rw [if_pos hvalue, if_pos ⟨by simp [hvalue.1, hname], hvalue.2⟩]
      rfl
    · rw [if_neg hvalue, if_neg (fun hv => hvalue ⟨fun hm => hv.1 (List.mem_append_left _ hm), hv.2⟩)]
      rfl

end MatrixCell

namespace Workspace

open MatrixCell

variable {c : Context} {settings : Settings.Matrix} {spec : Settings.Project} {p : Project}
  {path parent name value : String}

/-- The secondary value of the matrix cell that a path ends in. -/
def matrixValue? (path : String) (settings : Settings.Matrix) : Option String :=
  (matrixCell? path settings).map (·.secondary)

/-- The secondary value is what the text behind the last dash of the whole path shows, colons or not. -/
theorem matrixValue?_eq (path : String) (settings : Settings.Matrix) :
    matrixValue? path settings = (shownValue? (Text.afterLast '-' path.toList)).map String.ofList := by
  rw [matrixValue?, matrixCell?, ofName, shownValue?]
  rcases Text.fields '_' (Text.afterLast '-' path.toList) with
    _ | ⟨written, _ | ⟨_ | ⟨first, value⟩, _ | ⟨next, rest⟩⟩⟩
  · rfl
  · rfl
  · rfl
  · rfl
  · simp only [String.toList_ofList]
    split <;> rfl
  · rfl

/-- The secondary value of a matrix project starts with a digit. -/
theorem startsWithDigit_of_matrixValue? (h : matrixValue? path settings = some value) :
    startsWithDigit value.toList := by
  obtain ⟨cell, hcell, rfl⟩ := Option.map_eq_some_iff.mp h
  exact (ofName_of_matrixCell? hcell).2

/-! ## Projects -/

/-- The directory that a project builds into if it is made for no cell. -/
def homeDir (c : Context) (spec : Settings.Project) : String :=
  match spec.buildDir with
  | some dir => Path.join c.root dir
  | none => defaultBuildDir c.root spec.path

/-- A matrix project builds into a directory of its value, and any other one into its home. -/
theorem buildDir_eq (c : Context) (spec : Settings.Project) :
    buildDir c spec =
      ((matrixValue? spec.path c.settings.matrix).map (Path.join (homeDir c spec))).getD
        (homeDir c spec) := by
  rw [buildDir, matrixValue?, homeDir]
  cases matrixCell? spec.path c.settings.matrix <;> rfl

/-- Whether a project is made for a cell with a secondary value, or for none: it has the capability of a
matrix build, and it builds into the directory of the value. -/
structure MadeFor (c : Context) (spec : Settings.Project) (value? : Option String) (p : Project) :
    Prop where
  capability : p.has .matrixBuild = value?.isSome
  buildDir : p.buildDir = (value?.map (Path.join (homeDir c spec))).getD (homeDir c spec)

/-- A project is made for the value that its path shows, or for none. -/
theorem madeFor_of_buildProject (h : buildProject c spec = .ok p) :
    MadeFor c spec (matrixValue? spec.path c.settings.matrix) p where
  capability := by rw [has_matrixBuild_of_buildProject h, matrixValue?, Option.isSome_map]
  buildDir := (buildDir_of_buildProject h).trans (buildDir_eq c spec)

/-! ## Below other projects -/

/-- The secondary value of a project below another one. A dash in its name, or no underscore behind the last
dash of the parent, leaves it the value of its own name. Otherwise it has the parent's value with its name
behind it, unless there is an underscore in the name. -/
theorem matrixValue?_below (parent name : String) (settings : Settings.Matrix) :
    matrixValue? (parent ++ ":" ++ name) settings =
      if '-' ∈ name.toList ∨ '_' ∉ Text.afterLast '-' parent.toList then
        matrixValue? (":" ++ name) settings
      else if '_' ∈ name.toList then none
      else (matrixValue? parent settings).map (· ++ ":" ++ name) := by
  have hbelow : (parent ++ ":" ++ name).toList = parent.toList ++ ':' :: name.toList := by simp
  have hown : (":" ++ name).toList = ':' :: name.toList := by simp
  rw [matrixValue?_eq, matrixValue?_eq, matrixValue?_eq, hbelow, hown]
  by_cases hdash : '-' ∈ name.toList
  · have hm : '-' ∈ ':' :: name.toList := List.mem_cons_of_mem _ hdash
    rw [if_pos (Or.inl hdash), Text.afterLast_append_of_mem hm]
  · have hm : '-' ∉ ':' :: name.toList := List.not_mem_cons_of_ne_of_not_mem (by decide) hdash
    rw [Text.afterLast_append_of_not_mem hm, Text.afterLast_of_not_mem hm]
    by_cases hline : '_' ∈ Text.afterLast '-' parent.toList
    · rw [if_neg (by simp [hdash, hline]), shownValue?_append_colon hline]
      split
      · rfl
      · rw [Option.map_map, Option.map_map]
        congr 1
        funext value
        simp [← String.toList_inj]
    · rw [if_pos (Or.inr hline), shownValue?_append_of_not_mem hline]

/-- A name without an underscore shows no value by itself. -/
theorem matrixValue?_of_not_mem (h : '_' ∉ path.toList) (settings : Settings.Matrix) :
    matrixValue? path settings = none := by
  rw [matrixValue?_eq, shownValue?_of_not_mem fun hm => h (Text.mem_of_mem_afterLast hm)]
  rfl

/-- A matrix project has an underscore behind its last dash. -/
theorem underscore_of_matrixValue? (h : (matrixValue? path settings).isSome) :
    '_' ∈ Text.afterLast '-' path.toList := by
  by_contra hm
  rw [matrixValue?_eq, shownValue?_of_not_mem hm] at h
  cases h

/-- Whether a project below another one is taken for the cell of its parent: the parent is a matrix project,
and nothing in the name keeps it from becoming a part of the parent's value. -/
structure Inherits (parent name : String) (settings : Settings.Matrix) : Prop where
  noDash : '-' ∉ name.toList
  noUnderscore : '_' ∉ name.toList
  parent : (matrixValue? parent settings).isSome

/-- Whether the cell of a project goes unnoticed below another one: its name has no dash that would keep an
underscore of the parent out of the cell. -/
structure Hides (parent name : String) (settings : Settings.Matrix) : Prop where
  noDash : '-' ∉ name.toList
  underscore : '_' ∈ Text.afterLast '-' parent.toList
  own : (matrixValue? (":" ++ name) settings).isSome

/-- By itself, a project that inherits a cell has none. -/
theorem Inherits.own (h : Inherits parent name settings) : matrixValue? (":" ++ name) settings = none :=
  matrixValue?_of_not_mem (by simp [h.noUnderscore]) settings

/-- Below its parent its name becomes a part of the parent's value. -/
theorem Inherits.below (h : Inherits parent name settings) :
    matrixValue? (parent ++ ":" ++ name) settings =
      (matrixValue? parent settings).map (· ++ ":" ++ name) := by
  have hline := underscore_of_matrixValue? h.parent
  rw [matrixValue?_below, if_neg (by simp [h.noDash, hline]), if_neg h.noUnderscore]

/-- A project whose cell goes unnoticed is made for none. -/
theorem Hides.below (h : Hides parent name settings) :
    matrixValue? (parent ++ ":" ++ name) settings = none := by
  have hname : '_' ∈ name.toList := by
    by_contra hm
    have hown := h.own
    rw [matrixValue?_of_not_mem (by simp [hm])] at hown
    cases hown
  rw [matrixValue?_below, if_neg (by simp [h.noDash, h.underscore]), if_pos hname]

/-- Nothing else stands between a project and the cell of its own name. -/
theorem matrixValue?_below_of_not (hi : ¬ Inherits parent name settings)
    (hh : ¬ Hides parent name settings) :
    matrixValue? (parent ++ ":" ++ name) settings = matrixValue? (":" ++ name) settings := by
  rw [matrixValue?_below]
  split
  · rfl
  · rename_i hcut
    rw [not_or, not_not] at hcut
    obtain ⟨hdash, hline⟩ := hcut
    split
    · have hown : ¬ (matrixValue? (":" ++ name) settings).isSome := fun hs => hh ⟨hdash, hline, hs⟩
      rw [Option.not_isSome_iff_eq_none.mp hown]
    · rename_i hname
      have hparent : ¬ (matrixValue? parent settings).isSome := fun hs => hi ⟨hdash, hname, hs⟩
      rw [Option.not_isSome_iff_eq_none.mp hparent, matrixValue?_of_not_mem (by simp [hname])]
      rfl

/-- A parent never has a say in the cells of the projects below it exactly if there is no underscore behind
its last dash. -/
theorem matrixValue?_below_all_iff :
    (∀ name, matrixValue? (parent ++ ":" ++ name) settings = matrixValue? (":" ++ name) settings) ↔
      '_' ∉ Text.afterLast '-' parent.toList := by
  constructor
  · intro hall hline
    have hown : (matrixValue? (":" ++ "1_2") settings).isSome := by
      rw [matrixValue?_eq]
      decide
    have hhides : Hides parent "1_2" settings := ⟨by decide, hline, hown⟩
    rw [← hall "1_2", hhides.below] at hown
    cases hown
  · intro hline name
    exact matrixValue?_below_of_not (fun hi => hline (underscore_of_matrixValue? hi.parent))
      fun hh => hline hh.underscore

/-- A project is made for a cell exactly if its path ends in one. Below another project it is made for the
value that its own name shows, or for none if that shows none, exactly if it neither is taken for its parent's
cell nor has its own one hidden by the parent. In the first case its name shows no value, and yet it is made
for the parent's value with its name behind it; in the second case it is made for no cell. -/
theorem matrix_below_exact (parent name : String) (settings : Settings.Matrix) :
    (∀ c spec p, buildProject c spec = .ok p →
      MadeFor c spec (matrixValue? spec.path c.settings.matrix) p) ∧
    (matrixValue? (parent ++ ":" ++ name) settings = matrixValue? (":" ++ name) settings ↔
      ¬ Inherits parent name settings ∧ ¬ Hides parent name settings) ∧
    (Inherits parent name settings →
      matrixValue? (":" ++ name) settings = none ∧
        matrixValue? (parent ++ ":" ++ name) settings =
          (matrixValue? parent settings).map (· ++ ":" ++ name)) ∧
    (Hides parent name settings → matrixValue? (parent ++ ":" ++ name) settings = none) := by
  refine ⟨fun _ _ _ => madeFor_of_buildProject, ⟨fun he => ⟨fun hi => ?_, fun hh => ?_⟩, ?_⟩,
    fun hi => ⟨hi.own, hi.below⟩, Hides.below⟩
  · have hsome := hi.parent
    rw [hi.below, hi.own, Option.map_eq_none_iff] at he
    rw [he] at hsome
    cases hsome
  · have hsome := hh.own
    rw [← he, hh.below] at hsome
    cases hsome
  · rintro ⟨hi, hh⟩
    exact matrixValue?_below_of_not hi hh

/-- A dash in the name of a project keeps its parents out of the cell. -/
theorem dashedName_below_cell :
    ¬ Inherits ":nessie-spark-3.3_2.12" "core-3.2_2.13" {} ∧
      ¬ Hides ":nessie-spark-3.3_2.12" "core-3.2_2.13" {} ∧
      matrixValue? ":nessie-spark-3.3_2.12:core-3.2_2.13" {} = some "2.13" := by
  have hi : ¬ Inherits ":nessie-spark-3.3_2.12" "core-3.2_2.13" {} :=
    fun h => absurd h.noDash (by decide)
  have hh : ¬ Hides ":nessie-spark-3.3_2.12" "core-3.2_2.13" {} := fun h => absurd h.noDash (by decide)
  obtain ⟨_, hvalue, _⟩ := matrix_below_exact ":nessie-spark-3.3_2.12" "core-3.2_2.13" {}
  exact ⟨hi, hh, (hvalue.mpr ⟨hi, hh⟩).trans (by decide)⟩

/-- A project below a matrix project, a matrix project below another one, and both by themselves. -/
def nestedSample : Context :=
  .new "/work" {
    projects := [
      { path := ":nessie-spark-3.3_2.12:sub" }, { path := ":sub" },
      { path := ":iceberg_views:spark_2.12" }, { path := ":spark_2.12" }] } {} .default

/-- The first project is moved for a value that is no version, and the third one is not moved. -/
theorem nestedSample_moved :
    (buildProjects nestedSample).map (·.map fun p => (p.has .matrixBuild, p.buildDir)) = .ok [
      (true, "/work/nessie-spark-3.3_2.12/sub/build/2.12:sub"), (false, "/work/sub/build"),
      (false, "/work/iceberg_views/spark_2.12/build"), (true, "/work/spark_2.12/build/2.12")] := by
  decide

end Workspace

end BuildGraph
