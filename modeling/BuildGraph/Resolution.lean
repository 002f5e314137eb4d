import BuildGraph.Catalog
import BuildGraph.Coordinate
import BuildGraph.Registry
import BuildGraph.SemanticVersion
import BuildGraph.Toolchain

/-!
# Resolving modules

A module that another one names is a project of the workspace or a published artifact, which depends
on the topology. The client library has a rule of its own: in a workspace it is the released one, in
the group that its version was published in.
-/

namespace BuildGraph

/-- A module by its name. -/
structure ModuleReference where
  name : String
  /-- An output of the module other than its default one. -/
  subTarget : Option String := none
deriving DecidableEq, Repr

/-- What a reference stands for. -/
inductive ResolvedModule where
  /-- A project of the workspace. -/
  | project (path : String) (subTarget : Option String)
  /-- A published artifact. -/
  | published (coordinate : Coordinate)
deriving DecidableEq, Repr

/-- The module in words. -/
def ResolvedModule.display : ResolvedModule → String
  | .project path none => "project(" ++ path ++ ")"
  | .project path (some subTarget) => "project(" ++ path ++ ", " ++ subTarget ++ ")"
  | .published coordinate => coordinate.display

/-- Resolve a reference. -/
def ModuleReference.resolve (m : ModuleReference) (topology : Topology) (registry : Registry) :
    ResolvedModule :=
  match topology with
  | .inWorkspace => .project (":" ++ m.name) m.subTarget
  | .splitBuild =>
    .published {
      group := registry.groupName (registry.classify m.name)
      artifact := m.name
      subTarget := m.subTarget }

/-- The module that holds the server application. -/
def serverModule : String := "nessie-quarkus"

/-- The runnable server application. -/
def resolveServerRunner (topology : Topology) (registry : Registry) : ResolvedModule :=
  ModuleReference.resolve ⟨serverModule, some Toolchain.quarkus.runnerSubTarget⟩ topology registry

/-- Why the client cannot be resolved. -/
inductive ClientFault where
  | catalog (why : Catalog.LookupFault)
  | version (why : SemanticVersion.InvalidVersion)
deriving DecidableEq, Repr

/-- The fault in words. -/
def ClientFault.message : ClientFault → String
  | .catalog why => why.message
  | .version why => why.message

/-- The client library: in a split build like any other module, else at the catalog's version and in
group A from the configured version on. -/
def resolveClient (topology : Topology) (registry : Registry) (catalog : Catalog)
    (client : Settings.Client) : Except ClientFault ResolvedModule :=
  match topology with
  | .splitBuild => .ok (ModuleReference.resolve ⟨client.artifact, none⟩ topology registry)
  | .inWorkspace => do
    let version ← (catalog.version client.catalogKey).mapError .catalog
    let order ← (SemanticVersion.compareTexts version client.minCurrentVersion).mapError .version
    let group := if order = .lt then client.legacyGroup else registry.groupName .a
    return .published { group, artifact := client.artifact, version := some version }

/-- In a workspace the order of the catalog's version and the configured one decides the group. -/
theorem resolveClient_of_version {registry : Registry} {catalog : Catalog} {client : Settings.Client}
    {version : String} (hv : catalog.version client.catalogKey = .ok version) :
    resolveClient .inWorkspace registry catalog client =
      ((SemanticVersion.compareTexts version client.minCurrentVersion).mapError .version).map fun order =>
        .published {
          group := if order = .lt then client.legacyGroup else registry.groupName .a
          artifact := client.artifact
          version := some version } := by
  have hbind : resolveClient .inWorkspace registry catalog client =
      ((catalog.version client.catalogKey).mapError .catalog).bind fun version =>
        ((SemanticVersion.compareTexts version client.minCurrentVersion).mapError .version).bind fun order =>
          .ok (.published {
            group := if order = .lt then client.legacyGroup else registry.groupName .a
            artifact := client.artifact
            version := some version }) := rfl
  rw [hbind, hv]
  change ((SemanticVersion.compareTexts version client.minCurrentVersion).mapError
    ClientFault.version).bind _ = _
  cases SemanticVersion.compareTexts version client.minCurrentVersion <;> rfl

end BuildGraph
