import BuildGraph.Catalog

/-!
# Catalogs without references

A reference to a version that is no reference itself may be replaced by what it refers to. Every look-up
that gives a version, or finds none or an empty one, goes on as before: the same key is named and the same
bound is taken, whichever side of the reference the declaration stands on. A look-up that ends at a
reference may change, since inlining is done once for all entries and a chain of references gets shorter
by it. Such a look-up changes exactly if the entry it ends at has been inlined itself.
-/

namespace BuildGraph

/-- The key that a declaration refers to. -/
def VersionSpec.reference? : VersionSpec → Option String
  | .reference key => some key
  | _ => none

/-- The version that a library is declared with. -/
def LibrarySpec.version? : LibrarySpec → Option VersionSpec
  | .table _ _ _ version => version
  | .shorthand _ => none

namespace Catalog

variable {c : Catalog} {key name : String} {constraint : Constraint} {spec : VersionSpec}

/-! ## Inlining -/

/-- The version declared under a name, unless it is a reference. -/
def target? (c : Catalog) (name : String) : Option VersionSpec :=
  (c.versions.find? name).filter (·.reference?.isNone)

/-- A declaration with what it refers to in its place, if there is something to refer to. -/
def inlineSpec (c : Catalog) : VersionSpec → VersionSpec
  | .reference name => (c.target? name).getD (.reference name)
  | spec => spec

/-- A library whose version is inlined. -/
def inlineLibrary (c : Catalog) : LibrarySpec → LibrarySpec
  | .shorthand text => .shorthand text
  | .table moduleName group name version => .table moduleName group name (version.map c.inlineSpec)

/-- The catalog with every reference inlined that can be. -/
def inlined (c : Catalog) : Catalog where
  versions := c.versions.mapValues fun _ => c.inlineSpec
  libraries := c.libraries.mapValues fun _ => c.inlineLibrary

/-- Whether the version declared under a name is a reference that gets inlined. -/
def Inlines (c : Catalog) (name : String) : Prop :=
  ∃ other, c.versions.find? name = some (.reference other) ∧ (c.target? other).isSome

/-- A name is a target exactly if its version is declared, and is no reference itself. -/
theorem target?_eq_some_iff :
    c.target? name = some spec ↔ c.versions.find? name = some spec ∧ spec.reference? = none := by
  rw [target?, Option.filter_eq_some_iff, Option.isNone_iff_eq_none]

/-- Inlining leaves alone what is no reference. -/
theorem inlineSpec_of_reference?_eq_none (h : spec.reference? = none) : c.inlineSpec spec = spec := by
  cases spec with
  | reference name => cases h
  | literal version => rfl
  | bounds strictly require prefer => rfl

/-- What inlining puts in the place of a reference is no reference, or the reference as it was. -/
theorem reference?_inlineSpec_reference (c : Catalog) (name : String) :
    (c.inlineSpec (.reference name)).reference? = if (c.target? name).isSome then none else some name := by
  rw [inlineSpec]
  cases h : c.target? name with
  | none => rfl
  | some spec => exact (target?_eq_some_iff.mp h).2

/-- A name that could not be referred to can be referred to after inlining exactly if its entry is
inlined. -/
theorem target?_inlined_isSome_iff (h : c.target? name = none) :
    (c.inlined.target? name).isSome ↔ c.Inlines name := by
  have hfind : c.inlined.versions.find? name = (c.versions.find? name).map c.inlineSpec :=
    SortedMap.find?_mapValues c.versions _ name
  rw [target?, hfind, Inlines]
  cases hv : c.versions.find? name with
  | none => simp
  | some spec =>
    cases hr : spec.reference? with
    | none =>
      have htarget : c.target? name = some spec := target?_eq_some_iff.mpr ⟨hv, hr⟩
      rw [h] at htarget
      cases htarget
    | some other =>
      obtain rfl : spec = .reference other := by
        cases spec <;> simp_all [VersionSpec.reference?]
      have hinline := c.reference?_inlineSpec_reference other
      cases ht : (c.target? other).isSome <;> simp_all [Option.filter]

/-! ## Outcomes of look-ups -/

/-- What is no reference is resolved without looking at any other entry. -/
theorem resolve_of_reference?_eq_none (c : Catalog) (key : String) (constraint : Constraint)
    (h : spec.reference? = none) :
    c.resolve key constraint spec = nonempty key (VersionSpec.choose constraint spec) := by
  cases spec with
  | reference name => cases h
  | literal version => rfl
  | bounds strictly require prefer => rfl

/-- A reference stands for what can be referred to under its name. -/
theorem resolve_reference (c : Catalog) (key : String) (constraint : Constraint) (name : String) :
    c.resolve key constraint (.reference name) =
      match c.target? name with
      | none => .error (.unresolvedReference key name)
      | some spec => nonempty key (VersionSpec.choose constraint spec) := by
  rw [resolve, target?]
  cases hv : c.versions.find? name with
  | none => rfl
  | some spec => cases spec <;> rfl

/-- What inlining makes of the outcome of a look-up, `after` of `before`, if the key's own entry refers to
`written`. -/
def Survives (c : Catalog) (key : String) (written : Option String)
    (before after : Except LookupFault String) : Prop :=
  match before with
  | .ok version => version ≠ "" ∧ after = before
  | .error (.missingEntry named) => named = key ∧ after = before
  | .error (.emptyVersion named) => named = key ∧ after = before
  | .error (.unresolvedReference named reference) =>
    named = key ∧ written = some reference ∧ (after = before ↔ ¬ c.Inlines reference)

/-- An outcome that depends on a version text alone survives. -/
theorem survives_nonempty (c : Catalog) (key : String) (written : Option String) (version : String) :
    c.Survives key written (nonempty key version) (nonempty key version) := by
  cases h : nonempty key version with
  | ok found => exact ⟨(nonempty_eq_ok_iff.mp h).2, rfl⟩
  | error fault =>
    unfold nonempty at h
    split at h
    · obtain rfl := Except.error.inj h
      exact ⟨rfl, rfl⟩
    · cases h

/-- An empty version is another fault than a reference that leads nowhere. -/
theorem nonempty_ne_unresolvedReference (key version named reference : String) :
    nonempty key version ≠ .error (.unresolvedReference named reference) := by
  unfold nonempty
  split <;> simp

/-- A declaration stands for the same version after inlining, under the same constraint. -/
theorem survives_resolve (c : Catalog) (key : String) (constraint : Constraint) (spec : VersionSpec) :
    c.Survives key spec.reference? (c.resolve key constraint spec)
      (c.inlined.resolve key constraint (c.inlineSpec spec)) := by
  cases hr : spec.reference? with
  | none =>
    rw [inlineSpec_of_reference?_eq_none hr, resolve_of_reference?_eq_none c key constraint hr,
      resolve_of_reference?_eq_none c.inlined key constraint hr]
    exact c.survives_nonempty key _ _
  | some name =>
    obtain rfl : spec = .reference name := by
      cases spec <;> simp_all [VersionSpec.reference?]
    rw [resolve_reference, inlineSpec]
    cases ht : c.target? name with
    | some target =>
      have hplain : target.reference? = none := (target?_eq_some_iff.mp ht).2
      rw [Option.getD_some, resolve_of_reference?_eq_none c.inlined key constraint hplain]
      exact c.survives_nonempty key _ _
    | none =>
      have hiff := target?_inlined_isSome_iff ht
      rw [Option.getD_none, resolve_reference]
      refine ⟨rfl, rfl, ?_⟩
      cases ht' : c.inlined.target? name with
      | none =>
        rw [ht'] at hiff
        simpa using hiff
      | some target =>
        rw [ht'] at hiff
        refine iff_of_false ?_ (not_not_intro (hiff.mp rfl))
        exact nonempty_ne_unresolvedReference key _ key name

/-- The reference that a library is declared with. -/
def libraryReference? (c : Catalog) (key : String) : Option String :=
  ((c.libraries.find? key).bind (·.version?)).bind (·.reference?)

/-- The reference in the entry of a key: in its version, or in its library if it has no version. -/
def versionReference? (c : Catalog) (key : String) : Option String :=
  match c.versions.find? key with
  | some spec => spec.reference?
  | none => c.libraryReference? key

/-- The look-up of a library survives inlining, as far as its reference does. -/
theorem survives_libraryVersion (c : Catalog) (key : String) :
    c.Survives key (c.libraryReference? key) (c.libraryVersion key) (c.inlined.libraryVersion key) := by
  have hfind : c.inlined.libraries.find? key = (c.libraries.find? key).map c.inlineLibrary :=
    SortedMap.find?_mapValues c.libraries _ key
  rw [libraryReference?, libraryVersion, libraryVersion, hfind]
  cases c.libraries.find? key with
  | none => exact ⟨rfl, rfl⟩
  | some library =>
    cases library with
    | shorthand text => exact c.survives_nonempty key _ _
    | table moduleName group name version =>
      cases version with
      | none => exact ⟨rfl, rfl⟩
      | some spec => exact c.survives_resolve key .preferred spec

/-- Inlining references keeps what is looked up. A version that is found is not empty and is found again,
a fault names the key that was looked up and comes again, and the only faults that may go away are at
references, written in the key's own entry, to entries that have been inlined. -/
theorem lookups_survive_inlining (c : Catalog) (key : String) :
    c.Survives key (c.versionReference? key) (c.version key) (c.inlined.version key) ∧
      c.Survives key (c.libraryReference? key) (c.libraryVersion key) (c.inlined.libraryVersion key) := by
  have hfind : c.inlined.versions.find? key = (c.versions.find? key).map c.inlineSpec :=
    SortedMap.find?_mapValues c.versions _ key
  refine ⟨?_, c.survives_libraryVersion key⟩
  rw [versionReference?, version, version, hfind]
  cases c.versions.find? key with
  | none => exact c.survives_libraryVersion key
  | some spec => exact c.survives_resolve key .required spec

/-- A chain of references gets shorter, and a reference to itself stays. -/
example :
    let c : Catalog := { versions := .ofList [("chain", .reference "link"), ("link", .reference "end"),
      ("end", .literal "1.0"), ("loop", .reference "loop")] }
    c.version "chain" = .error (.unresolvedReference "chain" "link") ∧
      c.inlined.version "chain" = .ok "1.0" ∧
      c.inlined.version "loop" = .error (.unresolvedReference "loop" "loop") := by
  refine ⟨?_, ?_, ?_⟩ <;> rfl

end Catalog

end BuildGraph
