import BuildGraph.Catalog.File
import BuildGraph.Path
import BuildGraph.Registry
import BuildGraph.Settings.File
import BuildGraph.Toolchain

/-!
# The context of a run

A run goes by the settings of the workspace, its version catalog and the groups of published modules.
The manifest of modules is read only in a split build, or on demand.
-/

namespace BuildGraph

/-- What a run goes by. -/
structure Context where
  /-- The root directory of the workspace. -/
  root : String
  settings : Settings
  catalog : Catalog
  registry : Registry
  topology : Topology
deriving DecidableEq

/-- Why a context cannot be loaded. -/
inductive LoadFault where
  | settings (why : Settings.Fault)
  | catalog (why : Catalog.FileFault)
  | manifest (why : ManifestFault)
deriving DecidableEq, Repr

/-- The fault in words. -/
def LoadFault.message : LoadFault → String
  | .settings why => why.message
  | .catalog why => why.message
  | .manifest why => why.message

namespace Context

/-- The context of given inputs; the settings decide on the topology. -/
def new (root : String) (settings : Settings) (catalog : Catalog) (registry : Registry) : Context where
  root
  settings
  catalog
  registry
  topology := .ofSplitBuild settings.topology.splitBuild

/-- The settings file of a workspace. -/
def settingsPath (root : String) : String := Path.join root Settings.fileName

/-- The catalog file of a workspace. -/
def catalogPath (root : String) (settings : Settings) : String := Path.join root settings.catalog

/-- The manifest of a workspace. -/
def manifestPath (c : Context) : String := Path.join c.root c.settings.topology.projectsManifest

/-- Read the manifest, in either topology. -/
def readManifest (files : Files) (c : Context) : Except ManifestFault Context :=
  (Registry.load files c.manifestPath c.settings.topology).map fun registry => { c with registry }

/-- Settings whose split-build switch is overridden, if `splitBuild` says so. -/
def override (splitBuild : Option Bool) (settings : Settings) : Settings :=
  match splitBuild with
  | none => settings
  | some splitBuild => { settings with topology := { settings.topology with splitBuild } }

/-- Load the context of the workspace at `root`. In a workspace build no manifest is read, and all
modules belong to group A. -/
def load (files : Files) (root : String) (splitBuild : Option Bool) : Except LoadFault Context := do
  let settings ← (Settings.load files (settingsPath root)).mapError .settings
  let settings := override splitBuild settings
  let catalog ← (Catalog.load files (catalogPath root settings)).mapError .catalog
  let c := new root settings catalog .default
  match c.topology with
  | .inWorkspace => return c
  | .splitBuild => (c.readManifest files).mapError .manifest

/-- The files that a run on the workspace at `root` may read: the settings file and, as far as it can
be read, the files that it names. -/
def inputPaths (files : Files) (root : String) : List String :=
  settingsPath root ::
    match Settings.load files (settingsPath root) with
    | .error _ => []
    | .ok settings => [catalogPath root settings, Path.join root settings.topology.projectsManifest]

end Context

end BuildGraph
