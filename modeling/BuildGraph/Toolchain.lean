/-!
# Topology and toolchains

Sibling modules are built in the workspace or fetched from a split build. A toolchain assembles a
project from classes that it generates itself, which the coverage of the project has to allow for.
-/

namespace BuildGraph

/-- Where sibling modules come from. -/
inductive Topology where
  | inWorkspace
  | splitBuild
deriving DecidableEq, Repr

/-- The topology that a split-build switch selects. -/
def Topology.ofSplitBuild (splitBuild : Bool) : Topology :=
  if splitBuild then .splitBuild else .inWorkspace

/-- What a topology is called. -/
def Topology.name : Topology → String
  | .inWorkspace => "in-workspace"
  | .splitBuild => "split-build"

/-- What an assembled application is packed into. -/
inductive PackageType where
  /-- One archive with everything in it. -/
  | uberJar
  /-- A directory in layers. -/
  | fastJar
deriving DecidableEq, Repr

/-- What a package type is called. -/
def PackageType.name : PackageType → String
  | .uberJar => "uber-jar"
  | .fastJar => "fast-jar"

/-- A toolchain that assembles projects. -/
inductive Toolchain where
  | quarkus
deriving DecidableEq, Repr

namespace Toolchain

/-- All toolchains. -/
def all : List Toolchain := [.quarkus]

/-- The name by which settings select a toolchain. -/
def name : Toolchain → String
  | .quarkus => "quarkus"

/-- The toolchain of a name. -/
def ofName? (name : String) : Option Toolchain := all.find? (·.name == name)

/-- The names of all toolchains in one text. -/
def knownNames : String := ", ".intercalate (all.map name)

/-- The task that compiles generated sources; classes are complete only after it. -/
def generatedSourcesTask : Toolchain → String
  | .quarkus => "compileQuarkusGeneratedSourcesJava"

/-- The class loaders that the coverage agent must leave alone. -/
def excludedClassLoader : Toolchain → String
  | .quarkus => "*QuarkusClassLoader"

/-- Properties of every test run, so that the toolchain neither writes a report of its own nor drops
the shared execution data. -/
def executionProperties : Toolchain → List (String × String)
  | .quarkus => [("quarkus.jacoco.report", "false"), ("quarkus.jacoco.reuse-data-file", "true")]

/-- The output that holds the runnable application. -/
def runnerSubTarget : Toolchain → String
  | .quarkus => "quarkusRunner"

/-- What the application is packed into. A split build consumes it as one artifact. -/
def packageType (_ : Toolchain) (uberJarRequested : Bool) (topology : Topology) : PackageType :=
  if uberJarRequested ∨ topology = .splitBuild then .uberJar else .fastJar

/-- Each toolchain is found by its own name. -/
theorem ofName?_name (t : Toolchain) : ofName? t.name = some t := by
  cases t; decide

end Toolchain

end BuildGraph
