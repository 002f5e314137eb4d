import BuildGraph.Context
import BuildGraph.Proofs.Activation
import BuildGraph.Resolution

/-!
# The groups of a loaded context

The names of the groups come from the settings only if the manifest is read. Loading reads it in a split
build; in a workspace build the registry has the default names, whatever the settings say, and the
client is looked for under them. Reading the manifest later on brings the names of the settings back.
-/

namespace BuildGraph.Context

variable {files : Files} {root : String} {splitBuild : Option Bool} {c : Context}

/-- Whether a registry has the group names of settings. -/
def HasGroups (r : Registry) (topology : Settings.Topology) : Prop :=
  r.groupA = topology.groupA ∧ r.groupB = topology.groupB

/-- An override concerns the split-build switch only. -/
theorem hasGroups_override {r : Registry} {settings : Settings} :
    HasGroups r (override splitBuild settings).topology ↔ HasGroups r settings.topology := by
  cases splitBuild <;> rfl

/-- A manifest that can be read comes with the group names of the settings. -/
theorem hasGroups_of_readManifest {d : Context} (h : c.readManifest files = .ok d) :
    HasGroups d.registry c.settings.topology ∧ d.settings = c.settings ∧ d.topology = c.topology := by
  obtain ⟨registry, hr, rfl⟩ := except_map_ok h
  rw [Registry.load] at hr
  split at hr
  · cases hr
  · obtain rfl := Except.ok.inj hr
    exact ⟨⟨rfl, rfl⟩, rfl, rfl⟩

/-- Loading ends with the default registry in a workspace build and with the manifest's in a split
build. -/
theorem load_ok (h : load files root splitBuild = .ok c) :
    ∃ settings, Settings.load files (settingsPath root) = .ok settings ∧
      c.settings = override splitBuild settings ∧
      c.topology = .ofSplitBuild c.settings.topology.splitBuild ∧
      (c.topology = .inWorkspace → c.registry = .default) ∧
      (c.topology = .splitBuild → HasGroups c.registry c.settings.topology) := by
  obtain ⟨settings, hs, h⟩ := except_bind_ok h
  obtain ⟨catalog, _, h⟩ := except_bind_ok h
  refine ⟨settings, except_mapError_ok hs, ?_⟩
  cases ht : (new root (override splitBuild settings) catalog .default).topology with
  | inWorkspace =>
    simp only [ht] at h
    obtain rfl := Except.ok.inj h
    refine ⟨rfl, rfl, fun _ => rfl, fun hsplit => ?_⟩
    rw [ht] at hsplit
    cases hsplit
  | splitBuild =>
    simp only [ht] at h
    obtain ⟨hgroups, hsettings, htopology⟩ := hasGroups_of_readManifest (except_mapError_ok h)
    rw [hsettings, htopology]
    refine ⟨rfl, rfl, fun hin => ?_, fun _ => hgroups⟩
    rw [ht] at hin
    cases hin

/-- In a split build a module that the manifest does not list is published in the first group of the
settings. -/
theorem resolve_of_hasGroups {m : ModuleReference} {registry : Registry} {topology : Settings.Topology}
    (h : HasGroups registry topology) (hm : registry.classify m.name = .a) :
    m.resolve .splitBuild registry =
      .published { group := topology.groupA, artifact := m.name, subTarget := m.subTarget } := by
  rw [ModuleReference.resolve, hm, Registry.groupName, h.1]

/-- In a workspace build a client that is recent enough is published in the first group of the
registry. -/
theorem resolveClient_of_current {registry : Registry} {catalog : Catalog} {client : Settings.Client}
    {version : String} {order : Ordering} (hv : catalog.version client.catalogKey = .ok version)
    (ho : SemanticVersion.compareTexts version client.minCurrentVersion = .ok order) (hlt : order ≠ .lt) :
    resolveClient .inWorkspace registry catalog client =
      .ok (.published {
        group := registry.groupA, artifact := client.artifact, version := some version }) := by
  rw [resolveClient_of_version hv, ho]
  simp only [Except.mapError, Except.map, if_neg hlt, Registry.groupName]

/-- A loaded context has the group names of the settings file exactly if it is one of a split build or
these names are the default ones. A split build resolves unlisted modules by them; a workspace build
looks for a recent client under the default name, until the manifest is read. -/
theorem hasGroups_iff_of_load (h : load files root splitBuild = .ok c) :
    ∃ settings, Settings.load files (settingsPath root) = .ok settings ∧
      (HasGroups c.registry settings.topology ↔
        c.topology = .splitBuild ∨ HasGroups .default settings.topology) ∧
      (∀ m : ModuleReference, c.topology = .splitBuild → c.registry.classify m.name = .a →
        m.resolve c.topology c.registry = .published {
          group := settings.topology.groupA, artifact := m.name, subTarget := m.subTarget }) ∧
      (∀ client version order, c.topology = .inWorkspace →
        c.catalog.version client.catalogKey = .ok version →
        SemanticVersion.compareTexts version client.minCurrentVersion = .ok order → order ≠ .lt →
        resolveClient c.topology c.registry c.catalog client = .ok (.published {
          group := Registry.default.groupA, artifact := client.artifact, version := some version })) ∧
      ∀ d, c.readManifest files = .ok d → HasGroups d.registry settings.topology := by
  obtain ⟨settings, hs, hsettings, _, hworkspace, hsplit⟩ := load_ok h
  rw [hsettings, hasGroups_override] at hsplit
  refine ⟨settings, hs, ⟨fun hg => ?_, ?_⟩, ?_, ?_, ?_⟩
  · cases ht : c.topology with
    | splitBuild => exact Or.inl rfl
    | inWorkspace =>
      rw [hworkspace ht] at hg
      exact Or.inr hg
  · rintro (ht | hd)
    · exact hsplit ht
    · cases ht : c.topology with
      | splitBuild => exact hsplit ht
      | inWorkspace =>
        rw [hworkspace ht]
        exact hd
  · intro m ht hm
    rw [ht]
    exact resolve_of_hasGroups (hsplit ht) hm
  · intro client version order ht hv ho hlt
    rw [ht, resolveClient_of_current hv ho hlt, hworkspace ht]
  · intro d hd
    obtain ⟨hgroups, _⟩ := hasGroups_of_readManifest hd
    rwa [hsettings, hasGroups_override] at hgroups

/-- Texts at some paths and nothing elsewhere. -/
def textFiles (texts : List (String × String)) : Files := fun path =>
  match texts.lookup path with
  | some text => .file text.toUTF8
  | none => .absent .notFound

/-- A workspace whose settings name the first group. -/
def sampleFiles : Files := textFiles [
  ("work/tessera.toml", "[topology]\ngroup-a = \"org.example\"\n"),
  ("work/gradle/libs.versions.toml", "[versions]\nnessieClientVersion = \"0.60.0\"\n"),
  ("work/gradle/projects.iceberg.properties", "nessie-listed\n")]

/-- In a split build the registry takes the group name of the settings. -/
theorem sampleFiles_hasGroups_in_split_build :
    ∃ c settings, load sampleFiles "work" (some true) = .ok c ∧
      Settings.load sampleFiles (settingsPath "work") = .ok settings ∧
      HasGroups c.registry settings.topology ∧ c.registry.groupA = "org.example" := by
  have hrun : (load sampleFiles "work" (some true)).toOption.map
      (fun c => (c.topology, c.registry.groupA)) = some (.splitBuild, "org.example") := by
    decide +kernel
  cases hl : load sampleFiles "work" (some true) with
  | error fault =>
    rw [hl] at hrun
    cases hrun
  | ok c =>
    rw [hl] at hrun
    obtain ⟨ht, hname⟩ := Prod.mk.inj (Option.some.inj hrun)
    obtain ⟨settings, hs, hiff, _⟩ := hasGroups_iff_of_load hl
    exact ⟨c, settings, rfl, hs, hiff.mpr (Or.inl ht), hname⟩

/-- In a workspace build the same settings do not even get their name for a recent client. -/
theorem sampleFiles_default_group_in_workspace :
    (load sampleFiles "work" none).toOption.map (fun c => (c.topology, c.settings.topology.groupA,
        c.registry.groupA, (resolveClient c.topology c.registry c.catalog {}).toOption)) =
      some (.inWorkspace, "org.example", "org.projectnessie.nessie", some (.published {
        group := "org.projectnessie.nessie", artifact := "nessie-client", version := some "0.60.0" })) := by
  decide +kernel

end BuildGraph.Context
