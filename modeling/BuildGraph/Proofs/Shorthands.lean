import BuildGraph.Catalog
import BuildGraph.Coordinate
import BuildGraph.Proofs.TextFields

/-!
# Coordinates in short form

A coordinate whose group and artifact have no colon can be told from its short form: the first colon ends
the group, the second one the artifact, and everything behind that is the version, colons included. A
catalog that declares a library by the short form therefore gives the version back. An empty version is
written like any other, but looking it up fails as if there were none.
-/

namespace BuildGraph

namespace Coordinate

variable {c d : Coordinate}

/-- Whether no part in front of the version has a colon. -/
structure IsDivided (c : Coordinate) : Prop where
  group : ':' ∉ c.group.toList
  artifact : ':' ∉ c.artifact.toList

/-- What the short form has behind the artifact. -/
def versionSuffix : Option String → List Char
  | none => []
  | some version => ':' :: version.toList

/-- A short form is the group, a colon, the artifact and what comes of the version. -/
theorem toList_shorthand (c : Coordinate) :
    c.shorthand.toList = c.group.toList ++ ':' :: (c.artifact.toList ++ versionSuffix c.version) := by
  rw [shorthand]
  cases c.version <;> simp [versionSuffix]

/-- Behind the first colon of a short form stands the artifact, as the group has none. -/
theorem afterFirst?_shorthand (h : c.IsDivided) :
    Text.afterFirst? ':' c.shorthand.toList = some (c.artifact.toList ++ versionSuffix c.version) := by
  rw [toList_shorthand, Text.afterFirst?_append h.group]

/-- The second colon, if there is one, ends the artifact. -/
theorem afterFirst?_artifact (h : c.IsDivided) :
    Text.afterFirst? ':' (c.artifact.toList ++ versionSuffix c.version) = c.version.map String.toList := by
  cases c.version with
  | none => rw [versionSuffix, List.append_nil, Text.afterFirst?_of_not_mem h.artifact, Option.map_none]
  | some version => rw [versionSuffix, Text.afterFirst?_append h.artifact, Option.map_some]

/-- The short form tells all the parts that are written in it. -/
theorem shorthand_eq_iff (hc : c.IsDivided) (hd : d.IsDivided) :
    c.shorthand = d.shorthand ↔
      c.group = d.group ∧ c.artifact = d.artifact ∧ c.version = d.version := by
  constructor
  · intro h
    have hrest : c.artifact.toList ++ versionSuffix c.version =
        d.artifact.toList ++ versionSuffix d.version := by
      rw [← Option.some_inj, ← afterFirst?_shorthand hc, ← afterFirst?_shorthand hd, h]
    have hversion : c.version = d.version := by
      refine Option.map_injective (fun _ _ => String.toList_inj.mp) ?_
      rw [← afterFirst?_artifact hc, ← afterFirst?_artifact hd, hrest]
    have hartifact : c.artifact = d.artifact := by
      rw [hversion, List.append_cancel_right_eq] at hrest
      exact String.toList_inj.mp hrest
    have hgroup : c.group = d.group := by
      rw [← String.toList_inj, toList_shorthand, toList_shorthand, hrest,
        List.append_cancel_right_eq] at h
      exact String.toList_inj.mp h
    exact ⟨hgroup, hartifact, hversion⟩
  · rintro ⟨hgroup, hartifact, hversion⟩
    rw [shorthand, shorthand, hgroup, hartifact, hversion]

/-- The version part is all behind the second colon, colons of its own included. -/
theorem versionPart_shorthand (h : c.IsDivided) : Catalog.versionPart c.shorthand = c.version.getD "" := by
  rw [Catalog.versionPart, afterFirst?_shorthand h, Option.bind_some, afterFirst?_artifact h]
  cases c.version with
  | none => rfl
  | some version => exact String.ofList_toList

/-- A library that a catalog declares by the short form of a coordinate has the coordinate's version,
whatever stands in it, and no version exactly if the coordinate has none or an empty one. Coordinates of the
same output have the same short form only if they are equal. -/
theorem shorthand_read_back (hc : c.IsDivided) :
    (∀ (catalog : Catalog) (key : String),
      catalog.libraries.find? key = some (.shorthand c.shorthand) →
      (∀ version, catalog.libraryVersion key = .ok version ↔ c.version = some version ∧ version ≠ "") ∧
      (catalog.libraryVersion key = .error (.emptyVersion key) ↔
        c.version = none ∨ c.version = some "")) ∧
    ∀ d : Coordinate, d.IsDivided → d.subTarget = c.subTarget →
      (d.shorthand = c.shorthand ↔ d = c) := by
  constructor
  · intro catalog key hfind
    have hlookup : catalog.libraryVersion key = Catalog.nonempty key (c.version.getD "") := by
      rw [Catalog.libraryVersion, hfind, ← versionPart_shorthand hc]
    simp only [hlookup, Catalog.nonempty_eq_ok_iff, Catalog.nonempty_eq_error_iff, and_true]
    cases c.version with
    | none => simp
    | some version => simp
  · intro d hd hsub
    rw [shorthand_eq_iff hd hc]
    constructor
    · rintro ⟨hgroup, hartifact, hversion⟩
      cases c
      cases d
      simp_all
    · rintro rfl
      exact ⟨rfl, rfl, rfl⟩

/-- A module whose version has colons. -/
def timestamped : Coordinate := ⟨"org.projectnessie", "nessie-client", some "0.49:12:30", none⟩

/-- A catalog that declares it. -/
def timestampedCatalog : Catalog := { libraries := .ofList [("client", .shorthand timestamped.shorthand)] }

/-- The version is read back with its colons, and the short form is not that of the module without it. -/
theorem timestamped_read_back :
    timestamped.IsDivided ∧ timestampedCatalog.libraryVersion "client" = .ok "0.49:12:30" ∧
      { timestamped with version := none }.shorthand ≠ timestamped.shorthand := by
  have hdivided : timestamped.IsDivided := ⟨by decide, by decide⟩
  obtain ⟨hlookup, hinjective⟩ := shorthand_read_back hdivided
  have hversion := (hlookup timestampedCatalog "client" rfl).1 "0.49:12:30"
  refine ⟨hdivided, hversion.mpr (by decide), fun h => ?_⟩
  have hunversioned : { timestamped with version := none }.IsDivided := ⟨hdivided.group, hdivided.artifact⟩
  exact absurd ((hinjective _ hunversioned rfl).mp h) (by decide)

/-- A colon in the artifact would end it too early. -/
example : Catalog.versionPart (Coordinate.mk "g" "a:b" none none).shorthand = "b" := by
  decide

end Coordinate

end BuildGraph
