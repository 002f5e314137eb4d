import BuildGraph.Proofs.LeftOutEntries
import BuildGraph.Settings.Encoding

/-!
# Settings with their defaults left out

Settings are read back from the document they are written as. Every optional entry that holds its default
value may be left out of the document, a whole table that has nothing but defaults as well as single
entries of a table, of a project or of a suite, and any number of them at once. The path of a project and
the name of a suite are not optional, and nothing below `secondary-axis` is.
-/

namespace BuildGraph.Settings

open Document

variable {surplus : Surplus} {dropped : Place → Bool}

/-! ## Texts -/

/-- A list of texts is read back in full, for elements are not dropped. -/
theorem list?_encodeTexts (dropped : Place → Bool) (texts : List String) :
    list? text? ((encodeTexts texts).without dropped) = some texts :=
  list?_without fun _ _ _ => rfl

theorem list?_encodeTexts_whole (texts : List String) : list? text? (encodeTexts texts) = some texts := by
  have h := list?_encodeTexts (fun _ => false) texts
  rwa [without_eq_self fun _ _ => rfl] at h

/-- An optional text is read back, be it there or not. -/
theorem optional?_encodeOption (dropped : Place → Bool) (s : Option String) :
    optional? text? ((encodeOption s).without dropped) = some s := by
  cases s <;> rfl

/-! ## Tables -/

/-- Whether a place in the table `topology` has its default; the table itself is the empty place. -/
def Topology.HoldsDefault (t : Topology) : Place → Prop
  | [] => t = {}
  | [.name "split-build"] => t.splitBuild = ({} : Topology).splitBuild
  | [.name "projects-manifest"] => t.projectsManifest = ({} : Topology).projectsManifest
  | [.name "group-a"] => t.groupA = ({} : Topology).groupA
  | [.name "group-b"] => t.groupB = ({} : Topology).groupB
  | _ => False

/-- Whether a place in the table `coverage` has its default. -/
def Coverage.HoldsDefault (c : Coverage) : Place → Prop
  | [] => c = {}
  | [.name "include"] => c.includes = ({} : Coverage).includes
  | [.name "exclude"] => c.excludes = ({} : Coverage).excludes
  | [.name "reports-dir"] => c.reportsDir = ({} : Coverage).reportsDir
  | [.name "tool-version-key"] => c.toolVersionKey = ({} : Coverage).toolVersionKey
  | _ => False

/-- Whether a place in the table `matrix` has its default. -/
def Matrix.HoldsDefault (m : Matrix) : Place → Prop
  | [] => m = {}
  | [.name "default-primary"] => m.defaultPrimary = ({} : Matrix).defaultPrimary
  | [.name "primary-library"] => m.primaryLibrary = ({} : Matrix).primaryLibrary
  | [.name "secondary-library"] => m.secondaryLibrary = ({} : Matrix).secondaryLibrary
  | [.name "secondary-axis"] => m.secondaryAxis = ({} : Matrix).secondaryAxis
  | _ => False

/-- Whether a place in the table `client` has its default. -/
def Client.HoldsDefault (c : Client) : Place → Prop
  | [] => c = {}
  | [.name "artifact"] => c.artifact = ({} : Client).artifact
  | [.name "catalog-key"] => c.catalogKey = ({} : Client).catalogKey
  | [.name "min-current-version"] => c.minCurrentVersion = ({} : Client).minCurrentVersion
  | [.name "legacy-group"] => c.legacyGroup = ({} : Client).legacyGroup
  | _ => False

/-- The table `topology` is read back without entries of their defaults. -/
theorem Topology.decode_without (t : Topology)
    (h : ∀ step place, dropped (step :: place) → t.HoldsDefault (step :: place)) :
    decode surplus (t.encode.without dropped) = some t := by
  have hsplitBuild : field ({} : Topology).splitBuild boolean?
      ((t.encode.without dropped).value? "split-build") = some t.splitBuild :=
    field_value?_without rfl rfl (h _ _)
  have hprojectsManifest : field ({} : Topology).projectsManifest text?
      ((t.encode.without dropped).value? "projects-manifest") = some t.projectsManifest :=
    field_value?_without rfl rfl (h _ _)
  have hgroupA : field ({} : Topology).groupA text?
      ((t.encode.without dropped).value? "group-a") = some t.groupA :=
    field_value?_without rfl rfl (h _ _)
  have hgroupB : field ({} : Topology).groupB text?
      ((t.encode.without dropped).value? "group-b") = some t.groupB :=
    field_value?_without rfl rfl (h _ _)
  rw [decode, fields?_without surplus _ (Eq.refl t.encode)]
  simp only [List.map_cons, List.map_nil, Option.bind_eq_bind, Option.bind_some, hsplitBuild,
    hprojectsManifest, hgroupA, hgroupB]
  rfl

/-- The table `coverage` is read back without entries of their defaults. -/
theorem Coverage.decode_without (c : Coverage)
    (h : ∀ step place, dropped (step :: place) → c.HoldsDefault (step :: place)) :
    decode surplus (c.encode.without dropped) = some c := by
  have hincludes : field ({} : Coverage).includes (list? text?)
      ((c.encode.without dropped).value? "include") = some c.includes :=
    field_value?_without rfl (list?_encodeTexts _ _) (h _ _)
  have hexcludes : field ({} : Coverage).excludes (list? text?)
      ((c.encode.without dropped).value? "exclude") = some c.excludes :=
    field_value?_without rfl (list?_encodeTexts _ _) (h _ _)
  have hreportsDir : field ({} : Coverage).reportsDir text?
      ((c.encode.without dropped).value? "reports-dir") = some c.reportsDir :=
    field_value?_without rfl rfl (h _ _)
  have htoolVersionKey : field ({} : Coverage).toolVersionKey text?
      ((c.encode.without dropped).value? "tool-version-key") = some c.toolVersionKey :=
    field_value?_without rfl rfl (h _ _)
  rw [decode, fields?_without surplus _ (Eq.refl c.encode)]
  simp only [List.map_cons, List.map_nil, Option.bind_eq_bind, Option.bind_some, hincludes, hexcludes,
    hreportsDir, htoolVersionKey]
  rfl

/-- The table `matrix` is read back without entries of their defaults. -/
theorem Matrix.decode_without (m : Matrix)
    (h : ∀ step place, dropped (step :: place) → m.HoldsDefault (step :: place)) :
    decode surplus (m.encode.without dropped) = some m := by
  have hdefaultPrimary : field ({} : Matrix).defaultPrimary text?
      ((m.encode.without dropped).value? "default-primary") = some m.defaultPrimary :=
    field_value?_without rfl rfl (h _ _)
  have hprimaryLibrary : field ({} : Matrix).primaryLibrary text?
      ((m.encode.without dropped).value? "primary-library") = some m.primaryLibrary :=
    field_value?_without rfl rfl (h _ _)
  have hsecondaryLibrary : field ({} : Matrix).secondaryLibrary text?
      ((m.encode.without dropped).value? "secondary-library") = some m.secondaryLibrary :=
    field_value?_without rfl rfl (h _ _)
  -- the names of this table are values of the axis, so nothing may be left out of it
  have hkept : ∀ step place, inside (.name "secondary-axis") dropped (step :: place) = false :=
    fun step place => Bool.eq_false_iff.mpr (h (.name "secondary-axis") (step :: place))
  have hsecondaryAxis : field ({} : Matrix).secondaryAxis (map? (list? text?))
      ((m.encode.without dropped).value? "secondary-axis") = some m.secondaryAxis := by
    refine field_value?_without rfl ?_ (h _ _)
    rw [without_eq_self hkept]
    exact map?_entries list?_encodeTexts_whole m.secondaryAxis
  rw [decode, fields?_without surplus _ (Eq.refl m.encode)]
  simp only [List.map_cons, List.map_nil, Option.bind_eq_bind, Option.bind_some, hdefaultPrimary,
    hprimaryLibrary, hsecondaryLibrary, hsecondaryAxis]
  rfl

/-- The table `client` is read back without entries of their defaults. -/
theorem Client.decode_without (c : Client)
    (h : ∀ step place, dropped (step :: place) → c.HoldsDefault (step :: place)) :
    decode surplus (c.encode.without dropped) = some c := by
  have hartifact : field ({} : Client).artifact text?
      ((c.encode.without dropped).value? "artifact") = some c.artifact :=
    field_value?_without rfl rfl (h _ _)
  have hcatalogKey : field ({} : Client).catalogKey text?
      ((c.encode.without dropped).value? "catalog-key") = some c.catalogKey :=
    field_value?_without rfl rfl (h _ _)
  have hminCurrentVersion : field ({} : Client).minCurrentVersion text?
      ((c.encode.without dropped).value? "min-current-version") = some c.minCurrentVersion :=
    field_value?_without rfl rfl (h _ _)
  have hlegacyGroup : field ({} : Client).legacyGroup text?
      ((c.encode.without dropped).value? "legacy-group") = some c.legacyGroup :=
    field_value?_without rfl rfl (h _ _)
  rw [decode, fields?_without surplus _ (Eq.refl c.encode)]
  simp only [List.map_cons, List.map_nil, Option.bind_eq_bind, Option.bind_some, hartifact,
    hcatalogKey, hminCurrentVersion, hlegacyGroup]
  rfl

/-! ## Projects -/

/-- Whether a place in a suite has its default. -/
def Suite.HoldsDefault (s : Suite) : Place → Prop
  | [.name "execution-data"] => s.executionData = none
  | [.name "source-set"] => s.sourceSet = none
  | _ => False

/-- Whether a place in a project has its default. -/
def Project.HoldsDefault (p : Project) : Place → Prop
  | [.name "build-dir"] => p.buildDir = none
  | [.name "toolchains"] => p.toolchains = []
  | [.name "uber-jar"] => p.uberJar = false
  | [.name "suite"] => p.suites = []
  | .name "suite" :: .item i :: place => ∃ s, p.suites[i]? = some s ∧ s.HoldsDefault place
  | _ => False

/-- A suite is read back without what it may leave out; its name is not among that. -/
theorem Suite.decode_without (s : Suite)
    (h : ∀ step place, dropped (step :: place) → s.HoldsDefault (step :: place)) :
    decode surplus (s.encode.without dropped) = some s := by
  have hname : ((s.encode.without dropped).value? "name").bind text? = some s.name :=
    bind_value?_without rfl (h _ _) rfl
  have hexecutionData : field none (optional? text?)
      ((s.encode.without dropped).value? "execution-data") = some s.executionData :=
    field_value?_without rfl (optional?_encodeOption _ _) (h _ _)
  have hsourceSet : field none (optional? text?)
      ((s.encode.without dropped).value? "source-set") = some s.sourceSet :=
    field_value?_without rfl (optional?_encodeOption _ _) (h _ _)
  rw [decode, fields?_without surplus _ (Eq.refl s.encode)]
  simp only [List.map_cons, List.map_nil, Option.bind_eq_bind, Option.bind_some, hname, hexecutionData,
    hsourceSet]
  rfl

/-- A project without toolchains is written without the list. -/
theorem Project.value?_toolchains (p : Project) :
    p.encode.value? "toolchains" =
      if p.toolchains.isEmpty then none else some (.array (p.toolchains.map .text)) := by
  obtain ⟨path, buildDir, toolchains, uberJar, suites⟩ := p
  cases toolchains <;> cases suites <;> rfl

theorem Project.value?_uberJar (p : Project) :
    p.encode.value? "uber-jar" = some (.boolean p.uberJar) := by
  obtain ⟨path, buildDir, toolchains, uberJar, suites⟩ := p
  cases toolchains <;> rfl

/-- A project without suites is written without the list. -/
theorem Project.value?_suites (p : Project) :
    p.encode.value? "suite" =
      if p.suites.isEmpty then none else some (.array (p.suites.map Suite.encode)) := by
  obtain ⟨path, buildDir, toolchains, uberJar, suites⟩ := p
  cases toolchains <;> cases suites <;> rfl

/-- A project is read back without what it may leave out, and with its suites likewise; its path is not
among that. -/
theorem Project.decode_without (p : Project)
    (h : ∀ step place, dropped (step :: place) → p.HoldsDefault (step :: place)) :
    decode surplus (p.encode.without dropped) = some p := by
  have hpath : ((p.encode.without dropped).value? "path").bind text? = some p.path :=
    bind_value?_without rfl (h _ _) rfl
  have hbuildDir : field none (optional? text?)
      ((p.encode.without dropped).value? "build-dir") = some p.buildDir :=
    field_value?_without rfl (optional?_encodeOption _ _) (h _ _)
  have htoolchains : field [] (list? text?)
      ((p.encode.without dropped).value? "toolchains") = some p.toolchains :=
    field_list?_without p.value?_toolchains (fun _ _ _ => rfl) (h _ _)
  have huberJar : field false boolean?
      ((p.encode.without dropped).value? "uber-jar") = some p.uberJar :=
    field_value?_without p.value?_uberJar rfl (h _ _)
  have hsuites : field [] (list? (Suite.decode surplus))
      ((p.encode.without dropped).value? "suite") = some p.suites := by
    refine field_list?_without p.value?_suites (fun i s hs => ?_) (h _ _)
    refine s.decode_without fun step place hd => ?_
    obtain ⟨s', hs', hdefault⟩ := h (.name "suite") (.item i :: step :: place) hd
    obtain rfl := Option.some.inj (hs.symm.trans hs')
    exact hdefault
  rw [decode, fields?_without surplus _ (Eq.refl p.encode)]
  simp only [List.map_cons, List.map_nil, Option.bind_eq_bind, Option.bind_some, hpath, hbuildDir,
    htoolchains, huberJar, hsuites]
  rfl

/-! ## Settings -/

/-- Whether a place in the document of settings is that of an optional entry with its default. -/
def HoldsDefault (s : Settings) : Place → Prop
  | [.name "catalog"] => s.catalog = ({} : Settings).catalog
  | .name "topology" :: place => s.topology.HoldsDefault place
  | .name "coverage" :: place => s.coverage.HoldsDefault place
  | .name "matrix" :: place => s.matrix.HoldsDefault place
  | .name "client" :: place => s.client.HoldsDefault place
  | [.name "project"] => s.projects = []
  | .name "project" :: .item i :: place => ∃ p, s.projects[i]? = some p ∧ p.HoldsDefault place
  | _ => False

/-- Settings without projects are written without the list. -/
theorem value?_projects (s : Settings) :
    s.encode.value? "project" =
      if s.projects.isEmpty then none else some (.array (s.projects.map Project.encode)) := by
  obtain ⟨catalog, topology, coverage, matrix, client, projects⟩ := s
  cases projects <;> rfl

/-- Settings are read back without any set of entries that have their defaults, tables and entries below
them alike. -/
theorem decode_without (s : Settings)
    (h : ∀ step place, dropped (step :: place) → s.HoldsDefault (step :: place)) :
    decode surplus (s.encode.without dropped) = some s := by
  have hcatalog : field ({} : Settings).catalog text?
      ((s.encode.without dropped).value? "catalog") = some s.catalog :=
    field_value?_without rfl rfl (h _ _)
  have htopology : field {} (Topology.decode surplus)
      ((s.encode.without dropped).value? "topology") = some s.topology :=
    field_value?_without rfl (s.topology.decode_without fun _ _ => h _ _) (h _ _)
  have hcoverage : field {} (Coverage.decode surplus)
      ((s.encode.without dropped).value? "coverage") = some s.coverage :=
    field_value?_without rfl (s.coverage.decode_without fun _ _ => h _ _) (h _ _)
  have hmatrix : field {} (Matrix.decode surplus)
      ((s.encode.without dropped).value? "matrix") = some s.matrix :=
    field_value?_without rfl (s.matrix.decode_without fun _ _ => h _ _) (h _ _)
  have hclient : field {} (Client.decode surplus)
      ((s.encode.without dropped).value? "client") = some s.client :=
    field_value?_without rfl (s.client.decode_without fun _ _ => h _ _) (h _ _)
  have hprojects : field [] (list? (Project.decode surplus))
      ((s.encode.without dropped).value? "project") = some s.projects := by
    refine field_list?_without s.value?_projects (fun i p hp => ?_) (h _ _)
    refine p.decode_without fun step place hd => ?_
    obtain ⟨p', hp', hdefault⟩ := h (.name "project") (.item i :: step :: place) hd
    obtain rfl := Option.some.inj (hp.symm.trans hp')
    exact hdefault
  rw [decode, fields?_without surplus _ (Eq.refl s.encode)]
  simp only [List.map_cons, List.map_nil, Option.bind_eq_bind, Option.bind_some, hcatalog, htopology,
    hcoverage, hmatrix, hclient, hprojects]
  rfl

/-- Settings are read back from the document they are written as, and still are if entries are left out of
it at any set of places, as long as each of them is that of an optional entry with its default. -/
theorem defaults_may_be_left_out (surplus : Surplus) (s : Settings) :
    decode surplus s.encode = some s ∧
      ∀ dropped : Place → Bool, (∀ place, dropped place → s.HoldsDefault place) →
        decode surplus (s.encode.without dropped) = some s := by
  have hsparse : ∀ dropped : Place → Bool, (∀ place, dropped place → s.HoldsDefault place) →
      decode surplus (s.encode.without dropped) = some s :=
    fun _ h => s.decode_without fun step place => h (step :: place)
  refine ⟨?_, hsparse⟩
  have hwhole := hsparse (fun _ => false) (fun _ h => absurd h Bool.false_ne_true)
  rwa [without_eq_self fun _ _ => rfl] at hwhole

/-- Nothing has to be written of settings that have nothing but defaults. -/
example : decode .refused (.table []) = some {} := rfl

/-- Settings with a project that has most of its values by default. -/
def sparseSample : Settings where
  topology := { splitBuild := true }
  matrix := { secondaryAxis := .ofList [("3.3", ["2.12", "2.13"])] }
  projects := [{
    path := ":nessie-quarkus"
    toolchains := ["quarkus"]
    suites := [{ name := "intTest", executionData := some "jacoco/intTest.exec" }] }]

/-- Places of their defaults: of tables, and of entries at every level. -/
def sparsePlaces : List Place := [
  [.name "catalog"],
  [.name "topology", .name "projects-manifest"],
  [.name "topology", .name "group-b"],
  [.name "coverage"],
  [.name "coverage", .name "include"],
  [.name "matrix", .name "default-primary"],
  [.name "matrix", .name "primary-library"],
  [.name "client"],
  [.name "project", .item 0, .name "build-dir"],
  [.name "project", .item 0, .name "uber-jar"],
  [.name "project", .item 0, .name "suite", .item 0, .name "source-set"]]

/-- What is left of the sample's document gives the sample back. -/
theorem sparseSample_read_back :
    let sparse : Document := .table [
      ("topology", .table [
        ("split-build", .boolean true),
        ("group-a", .text "org.projectnessie.nessie")]),
      ("matrix", .table [
        ("secondary-library", .text "scala-library"),
        ("secondary-axis", .table [("3.3", .array [.text "2.12", .text "2.13"])])]),
      ("project", .array [.table [
        ("path", .text ":nessie-quarkus"),
        ("toolchains", .array [.text "quarkus"]),
        ("suite", .array [.table [
          ("name", .text "intTest"),
          ("execution-data", .text "jacoco/intTest.exec")]])]])]
    (∀ place, decide (place ∈ sparsePlaces) → sparseSample.HoldsDefault place) ∧
      sparseSample.encode.without (fun place => place ∈ sparsePlaces) = sparse ∧
      decode .refused sparse = some sparseSample := by
  intro sparse
  have hlisted : ∀ place ∈ sparsePlaces, sparseSample.HoldsDefault place := by
    rw [sparsePlaces]
    simp only [List.forall_mem_cons]
    exact ⟨rfl, rfl, rfl, rfl, rfl, rfl, rfl, rfl, ⟨_, rfl, rfl⟩, ⟨_, rfl, rfl⟩,
      ⟨_, rfl, _, rfl, rfl⟩, List.forall_mem_nil _⟩
  have hplaces : ∀ place, decide (place ∈ sparsePlaces) → sparseSample.HoldsDefault place :=
    fun place h => hlisted place (of_decide_eq_true h)
  have hsparse : sparseSample.encode.without (fun place => place ∈ sparsePlaces) = sparse := rfl
  refine ⟨hplaces, hsparse, ?_⟩
  rw [← hsparse]
  exact (defaults_may_be_left_out .refused sparseSample).2 _ hplaces

end BuildGraph.Settings
