import BuildGraph.Properties
import BuildGraph.Settings

/-!
# Groups of published modules

A module is published in group B if the manifest lists it, and in group A otherwise. The manifest is a
property file whose keys are the modules.
-/

namespace BuildGraph

/-- A group of published modules. -/
inductive ModuleGroup where
  /-- Modules that the main workspace builds. -/
  | a
  /-- Modules that the split workspace builds. -/
  | b
deriving DecidableEq, Repr

/-- The names of the groups and the modules of group B. -/
structure Registry where
  groupA : String
  groupB : String
  members : SortedSet String
deriving DecidableEq

/-- Why there is no registry. -/
structure ManifestFault where
  path : String
  why : Properties.Fault
deriving DecidableEq, Repr

/-- The fault in words. -/
def ManifestFault.message (f : ManifestFault) : String :=
  "cannot load module manifest " ++ f.path ++ ": " ++ f.why.message

namespace Registry

/-- The registry that lists no module, with the default names of the groups. -/
def default : Registry :=
  let topology : Settings.Topology := {}
  ⟨topology.groupA, topology.groupB, .empty⟩

/-- Read the manifest at `path`; the names of the groups are those of the settings. -/
def load (files : Files) (path : String) (topology : Settings.Topology) :
    Except ManifestFault Registry :=
  match Properties.load files path with
  | .error why => .error ⟨path, why⟩
  | .ok properties => .ok ⟨topology.groupA, topology.groupB, .ofList properties.keys⟩

/-- The group of a module. -/
def classify (r : Registry) (artifact : String) : ModuleGroup :=
  if r.members.contains artifact then .b else .a

/-- The name of a group. -/
def groupName (r : Registry) : ModuleGroup → String
  | .a => r.groupA
  | .b => r.groupB

end Registry

end BuildGraph
