import BuildGraph.Document
import BuildGraph.Settings

/-!
# Settings as documents

Settings are written as tables whose names have dashes. What is left out takes its default value, and
`null` stands only for an option that is absent. `encode` writes every value, but leaves out empty
lists of projects, toolchains and suites.
-/

namespace BuildGraph.Settings

open Document (fields? field text? boolean? list? optional? map? Surplus)

/-- Read the table `topology`. -/
def Topology.decode (surplus : Surplus) (d : Document) : Option Topology := do
  match ← fields? surplus ["split-build", "projects-manifest", "group-a", "group-b"] d with
  | [splitBuild, projectsManifest, groupA, groupB] =>
    let default : Topology := {}
    return {
      splitBuild := ← field default.splitBuild boolean? splitBuild
      projectsManifest := ← field default.projectsManifest text? projectsManifest
      groupA := ← field default.groupA text? groupA
      groupB := ← field default.groupB text? groupB }
  | _ => none

/-- Read the table `coverage`. -/
def Coverage.decode (surplus : Surplus) (d : Document) : Option Coverage := do
  match ← fields? surplus ["include", "exclude", "reports-dir", "tool-version-key"] d with
  | [includes, excludes, reportsDir, toolVersionKey] =>
    let default : Coverage := {}
    return {
      includes := ← field default.includes (list? text?) includes
      excludes := ← field default.excludes (list? text?) excludes
      reportsDir := ← field default.reportsDir text? reportsDir
      toolVersionKey := ← field default.toolVersionKey text? toolVersionKey }
  | _ => none

/-- Read the table `matrix`. -/
def Matrix.decode (surplus : Surplus) (d : Document) : Option Matrix := do
  match ← fields? surplus
    ["default-primary", "primary-library", "secondary-library", "secondary-axis"] d with
  | [defaultPrimary, primaryLibrary, secondaryLibrary, secondaryAxis] =>
    let default : Matrix := {}
    return {
      defaultPrimary := ← field default.defaultPrimary text? defaultPrimary
      primaryLibrary := ← field default.primaryLibrary text? primaryLibrary
      secondaryLibrary := ← field default.secondaryLibrary text? secondaryLibrary
      secondaryAxis := ← field default.secondaryAxis (map? (list? text?)) secondaryAxis }
  | _ => none

/-- Read the table `client`. -/
def Client.decode (surplus : Surplus) (d : Document) : Option Client := do
  match ← fields? surplus ["artifact", "catalog-key", "min-current-version", "legacy-group"] d with
  | [artifact, catalogKey, minCurrentVersion, legacyGroup] =>
    let default : Client := {}
    return {
      artifact := ← field default.artifact text? artifact
      catalogKey := ← field default.catalogKey text? catalogKey
      minCurrentVersion := ← field default.minCurrentVersion text? minCurrentVersion
      legacyGroup := ← field default.legacyGroup text? legacyGroup }
  | _ => none

/-- Read a suite; it must have a name. -/
def Suite.decode (surplus : Surplus) (d : Document) : Option Suite := do
  match ← fields? surplus ["name", "execution-data", "source-set"] d with
  | [name, executionData, sourceSet] =>
    return {
      name := ← name.bind text?
      executionData := ← field none (optional? text?) executionData
      sourceSet := ← field none (optional? text?) sourceSet }
  | _ => none

/-- Read a project; it must have a path. -/
def Project.decode (surplus : Surplus) (d : Document) : Option Project := do
  match ← fields? surplus ["path", "build-dir", "toolchains", "uber-jar", "suite"] d with
  | [path, buildDir, toolchains, uberJar, suites] =>
    return {
      path := ← path.bind text?
      buildDir := ← field none (optional? text?) buildDir
      toolchains := ← field [] (list? text?) toolchains
      uberJar := ← field false boolean? uberJar
      suites := ← field [] (list? (Suite.decode surplus)) suites }
  | _ => none

/-- Read settings. -/
def decode (surplus : Surplus) (d : Document) : Option Settings := do
  match ← fields? surplus ["catalog", "topology", "coverage", "matrix", "client", "project"] d with
  | [catalog, topology, coverage, matrix, client, projects] =>
    let default : Settings := {}
    return {
      catalog := ← field default.catalog text? catalog
      topology := ← field {} (Topology.decode surplus) topology
      coverage := ← field {} (Coverage.decode surplus) coverage
      matrix := ← field {} (Matrix.decode surplus) matrix
      client := ← field {} (Client.decode surplus) client
      projects := ← field [] (list? (Project.decode surplus)) projects }
  | _ => none

/-- A text that may be absent. -/
def encodeOption : Option String → Document
  | none => .null
  | some s => .text s

/-- A list of texts. -/
def encodeTexts (texts : List String) : Document := .array (texts.map .text)

/-- An entry that is left out if its list is empty. -/
def nonemptyEntry (name : String) : List Document → List (String × Document)
  | [] => []
  | d :: ds => [(name, .array (d :: ds))]

/-- Write the table `topology`. -/
def Topology.encode (t : Topology) : Document :=
  .table [
    ("split-build", .boolean t.splitBuild),
    ("projects-manifest", .text t.projectsManifest),
    ("group-a", .text t.groupA),
    ("group-b", .text t.groupB)]

/-- Write the table `coverage`. -/
def Coverage.encode (c : Coverage) : Document :=
  .table [
    ("include", encodeTexts c.includes),
    ("exclude", encodeTexts c.excludes),
    ("reports-dir", .text c.reportsDir),
    ("tool-version-key", .text c.toolVersionKey)]

/-- Write the table `matrix`. -/
def Matrix.encode (m : Matrix) : Document :=
  .table [
    ("default-primary", .text m.defaultPrimary),
    ("primary-library", .text m.primaryLibrary),
    ("secondary-library", .text m.secondaryLibrary),
    ("secondary-axis", .table (m.secondaryAxis.entries.map fun e => (e.1, encodeTexts e.2)))]

/-- Write the table `client`. -/
def Client.encode (c : Client) : Document :=
  .table [
    ("artifact", .text c.artifact),
    ("catalog-key", .text c.catalogKey),
    ("min-current-version", .text c.minCurrentVersion),
    ("legacy-group", .text c.legacyGroup)]

/-- Write a suite. -/
def Suite.encode (s : Suite) : Document :=
  .table [
    ("name", .text s.name),
    ("execution-data", encodeOption s.executionData),
    ("source-set", encodeOption s.sourceSet)]

/-- Write a project. -/
def Project.encode (p : Project) : Document :=
  .table ([("path", .text p.path), ("build-dir", encodeOption p.buildDir)]
    ++ nonemptyEntry "toolchains" (p.toolchains.map .text)
    ++ [("uber-jar", .boolean p.uberJar)]
    ++ nonemptyEntry "suite" (p.suites.map Suite.encode))

/-- Write settings. -/
def encode (s : Settings) : Document :=
  .table ([
    ("catalog", .text s.catalog),
    ("topology", s.topology.encode),
    ("coverage", s.coverage.encode),
    ("matrix", s.matrix.encode),
    ("client", s.client.encode)]
    ++ nonemptyEntry "project" (s.projects.map Project.encode))

end BuildGraph.Settings
