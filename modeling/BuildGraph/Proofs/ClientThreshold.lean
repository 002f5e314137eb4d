import Mathlib.Algebra.Group.Nat.Defs
import BuildGraph.Proofs.Registration
import BuildGraph.Proofs.VersionOrder
import BuildGraph.Resolution

/-!
# The threshold of the client

Outside split builds the client is looked for in the current group from a configured version on, and in the
legacy group before it. Releases are compared by their numbers and not by their texts: three numbers below
2 ^ 64 are read back from their decimal text, and releases are ordered like the triples of their numbers.
Between versions of any kind the cut is clean: a version that is not before one of the current group is in
the current group as well.
-/

namespace BuildGraph

/-! ## Releases in text -/

namespace SemanticVersion

variable {n a b c : Nat} {part : Part} {rest : List Char} {left right text : String} {order : Ordering}

/-- The text of a release: three numbers in decimal with dots between them. -/
def releaseText (major minor patch : Nat) : String :=
  toString major ++ "." ++ toString minor ++ "." ++ toString patch

/-- A release is written as three decimal numbers with dots between them, character by character. -/
theorem toList_releaseText (a b c : Nat) :
    (releaseText a b c).toList =
      Nat.toDigits 10 a ++ '.' :: (Nat.toDigits 10 b ++ '.' :: Nat.toDigits 10 c) := by
  simp [releaseText, Nat.toString_eq_repr, Nat.toList_repr]

/-- Digits written in decimal are read back as the number. -/
theorem decimal_toDigits (n : Nat) : decimal (Nat.toDigits 10 n) = n :=
  Nat.ofDigitChars_ten_toDigits

/-- The decimal text of a number starts with a zero only if that is all. -/
theorem head?_toDigits_ne_zero (h : 0 < n) : (Nat.toDigits 10 n).head? ≠ some '0' := by
  induction n using Nat.strongRecOn with
  | ind n ih =>
    by_cases hn : n < 10
    · have hdigit : ∀ m < 10, 0 < m → [m.digitChar].head? ≠ some '0' := by decide
      rw [Nat.toDigits_of_lt_base hn]
      exact hdigit n hn h
    · have hquotient : 0 < n / 10 := by omega
      have hhead := ih (n / 10) (by omega) hquotient
      rw [Nat.toDigits_of_base_le (by decide) (by omega), List.head?_append_of_ne_nil _ Nat.toDigits_ne_nil]
      exact hhead

/-- A number is read back from its decimal text if no digit follows. -/
theorem number_toDigits (hn : n ≤ maxNumber) (hrest : ∀ d ∈ rest.head?, d.isDigit = false) :
    number part (Nat.toDigits 10 n ++ rest) = .ok (n, rest) := by
  have hdigits : ∀ d ∈ Nat.toDigits 10 n, d.isDigit = true := fun d =>
    Nat.isDigit_of_mem_toDigits (by decide) (by decide)
  have hstop : rest.takeWhile Char.isDigit = [] ∧ rest.dropWhile Char.isDigit = rest := by
    cases rest with
    | nil => exact ⟨rfl, rfl⟩
    | cons d rest =>
      have hd : d.isDigit = false := hrest d rfl
      simp [hd]
  have htake : (Nat.toDigits 10 n ++ rest).takeWhile Char.isDigit = Nat.toDigits 10 n := by
    rw [List.takeWhile_append_of_pos hdigits, hstop.1, List.append_nil]
  have hdrop : (Nat.toDigits 10 n ++ rest).dropWhile Char.isDigit = rest := by
    rw [List.dropWhile_append_of_pos hdigits, hstop.2]
  unfold number
  rw [htake, hdrop]
  split
  · exact absurd ‹Nat.toDigits 10 n = []› Nat.toDigits_ne_nil
  · exact absurd ‹Nat.toDigits 10 n = []› Nat.toDigits_ne_nil
  · rename_i hzero
    have hpos : 0 < n := by
      rw [Nat.pos_iff_ne_zero]
      rintro rfl
      rw [Nat.toDigits_zero] at hzero
      cases hzero
    exact absurd (by rw [hzero]; rfl) (head?_toDigits_ne_zero hpos)
  · rw [decimal_toDigits, if_neg (by omega)]

/-- Three numbers are read back from the text of their release. -/
theorem parse_releaseText (ha : a ≤ maxNumber) (hb : b ≤ maxNumber) (hc : c ≤ maxNumber) :
    parse (releaseText a b c) = .ok { major := a, minor := b, patch := c } := by
  have hlist := toList_releaseText a b c
  have hne : (releaseText a b c).isEmpty = false := by
    rw [← Bool.not_eq_true, String.isEmpty_iff]
    intro h
    rw [h] at hlist
    simp at hlist
  have hdot : ∀ (cs : List Char), ∀ d ∈ ('.' :: cs).head?, d.isDigit = false := by
    intro cs d hd
    obtain rfl := Option.some.inj hd
    rfl
  have hmajor : number .major (releaseText a b c).toList =
      .ok (a, '.' :: (Nat.toDigits 10 b ++ '.' :: Nat.toDigits 10 c)) := by
    rw [hlist]
    exact number_toDigits ha (hdot _)
  have hminor : number .minor (Nat.toDigits 10 b ++ '.' :: Nat.toDigits 10 c) =
      .ok (b, '.' :: Nat.toDigits 10 c) := number_toDigits hb (hdot _)
  have hpatch : number .patch (Nat.toDigits 10 c ++ []) = .ok (c, []) := number_toDigits hc (by simp)
  rw [List.append_nil] at hpatch
  simp [parse, hne, hmajor, hminor, hpatch, dot, announced, bind, Except.bind, pure, Except.pure]

/-- Texts are compared as versions, and only if both are versions. -/
theorem compareTexts_eq_ok_iff :
    compareTexts left right = .ok order ↔
      ∃ v w, parse left = .ok v ∧ parse right = .ok w ∧ order = compare v w := by
  constructor
  · intro h
    obtain ⟨v, hv, h⟩ := except_bind_ok h
    obtain ⟨w, hw, h⟩ := except_bind_ok h
    exact ⟨v, w, except_mapError_ok hv, except_mapError_ok hw, (Except.ok.inj h).symm⟩
  · rintro ⟨v, w, hv, hw, rfl⟩
    simp [compareTexts, read, hv, hw, Except.mapError, bind, Except.bind, pure, Except.pure]

/-- Releases in text are compared like the triples of their numbers. -/
theorem compareTexts_releaseText {d e f : Nat} (h : ∀ n ∈ [a, b, c, d, e, f], n < 2 ^ 64) :
    compareTexts (releaseText a b c) (releaseText d e f) =
      .ok (Ord.compare (toLex (a, toLex (b, c))) (toLex (d, toLex (e, f)))) := by
  have hbound : ∀ n ∈ [a, b, c, d, e, f], n ≤ maxNumber := by
    intro n hn
    have hlt := h n hn
    have hmax : maxNumber = 2 ^ 64 - 1 := rfl
    omega
  simp only [List.forall_mem_cons] at hbound
  obtain ⟨ha, hb, hc, hd, he, hf, -⟩ := hbound
  have hleft := parse_releaseText ha hb hc
  have hright := parse_releaseText hd he hf
  rw [← compare_releases]
  exact compareTexts_eq_ok_iff.mpr ⟨_, _, hleft, hright, rfl⟩

end SemanticVersion

/-! ## The group of the client -/

section Client

open SemanticVersion

variable {registry : Registry} {catalog : Catalog} {client : Settings.Client} {version : String}

/-- The client of a version in a group. -/
def clientIn (client : Settings.Client) (group version : String) : ResolvedModule :=
  .published { group, artifact := client.artifact, version := some version }

/-- The group of the client by the order of its version and the configured one. -/
def clientGroup (registry : Registry) (client : Settings.Client) (order : Ordering) : String :=
  if order = .lt then client.legacyGroup else registry.groupA

/-- The resolved client tells its group. -/
theorem clientIn_injective {group group' : String}
    (h : clientIn client group version = clientIn client group' version) : group = group' :=
  congrArg Coordinate.group (ResolvedModule.published.inj h)

/-- In the workspace the client is resolved exactly if both versions can be compared, into the group that
their order calls for. -/
theorem resolveClient_eq_ok_iff {resolved : ResolvedModule}
    (hv : catalog.version client.catalogKey = .ok version) :
    resolveClient .inWorkspace registry catalog client = .ok resolved ↔
      ∃ order, compareTexts version client.minCurrentVersion = .ok order ∧
        resolved = clientIn client (clientGroup registry client order) version := by
  rw [resolveClient_of_version hv]
  cases compareTexts version client.minCurrentVersion with
  | error why => simp [Except.mapError, Except.map]
  | ok order => simp [Except.mapError, Except.map, clientIn, clientGroup, Registry.groupName, eq_comm]

/-- A version that is not before one of the current group is in the current group. -/
theorem clientGroup_of_ne_gt {v w bound : SemanticVersion} (h : SemanticVersion.compare v w ≠ .gt)
    (hv : clientGroup registry client (SemanticVersion.compare v bound) = registry.groupA) :
    clientGroup registry client (SemanticVersion.compare w bound) = registry.groupA := by
  unfold clientGroup at hv ⊢
  split at hv
  · -- The legacy group is the current one.
    rw [hv, ite_self]
  · rename_i hbound
    exact if_neg (compare_ne_lt_of_ne_gt h hbound)

/-- The client of a release is in the current group from the configured release on. -/
theorem resolveClient_release {a b c d e f : Nat} (h : ∀ n ∈ [a, b, c, d, e, f], n < 2 ^ 64)
    (hv : catalog.version client.catalogKey = .ok (releaseText a b c))
    (hmin : client.minCurrentVersion = releaseText d e f) :
    resolveClient .inWorkspace registry catalog client = .ok (clientIn client
      (if toLex (d, toLex (e, f)) ≤ toLex (a, toLex (b, c)) then registry.groupA
        else client.legacyGroup) (releaseText a b c)) := by
  have horder := compareTexts_releaseText h
  rw [← hmin] at horder
  have hlt : compare (toLex (a, toLex (b, c))) (toLex (d, toLex (e, f))) = .lt ↔
      ¬ toLex (d, toLex (e, f)) ≤ toLex (a, toLex (b, c)) := by
    rw [compare_lt_iff_lt, not_le]
  refine (resolveClient_eq_ok_iff hv).mpr ⟨_, horder, ?_⟩
  simp only [clientGroup, hlt, ite_not]

/-- Of two versions in catalogs, the one that is not before a version of the current group is in the current
group as well. -/
theorem resolveClient_of_ne_gt {catalog' : Catalog} {v w : String} {order : Ordering}
    (hv : catalog.version client.catalogKey = .ok v) (hw : catalog'.version client.catalogKey = .ok w)
    (hvw : compareTexts v w = .ok order) (hne : order ≠ .gt)
    (hcurrent : resolveClient .inWorkspace registry catalog client =
      .ok (clientIn client registry.groupA v)) :
    resolveClient .inWorkspace registry catalog' client = .ok (clientIn client registry.groupA w) := by
  obtain ⟨a, b, ha, hb, rfl⟩ := compareTexts_eq_ok_iff.mp hvw
  obtain ⟨_, hmin, hgroup⟩ := (resolveClient_eq_ok_iff hv).mp hcurrent
  obtain ⟨a', bound, ha', hbound, rfl⟩ := compareTexts_eq_ok_iff.mp hmin
  obtain rfl := Except.ok.inj (ha.symm.trans ha')
  have horder : compareTexts w client.minCurrentVersion = .ok (SemanticVersion.compare b bound) :=
    compareTexts_eq_ok_iff.mpr ⟨b, bound, hb, hbound, rfl⟩
  have hsame := clientGroup_of_ne_gt hne (clientIn_injective hgroup).symm
  exact (resolveClient_eq_ok_iff hw).mpr ⟨_, horder, by rw [hsame]⟩

/-- Outside split builds the client of a release is in the current group exactly if its three numbers are at
least those of the configured release, in the order in which the first one counts most; otherwise it is in
the legacy group. Of any two versions, if the one that is not after the other is in the current group, then
so is the other. -/
theorem client_threshold_cut (registry : Registry) (client : Settings.Client) :
    (∀ (catalog : Catalog) (a b c d e f : Nat), (∀ n ∈ [a, b, c, d, e, f], n < 2 ^ 64) →
      compareTexts (releaseText a b c) (releaseText d e f) =
        .ok (compare (toLex (a, toLex (b, c))) (toLex (d, toLex (e, f)))) ∧
      (catalog.version client.catalogKey = .ok (releaseText a b c) →
        client.minCurrentVersion = releaseText d e f →
        resolveClient .inWorkspace registry catalog client = .ok (clientIn client
          (if toLex (d, toLex (e, f)) ≤ toLex (a, toLex (b, c)) then registry.groupA
            else client.legacyGroup) (releaseText a b c)))) ∧
    ∀ (catalog catalog' : Catalog) (v w : String) (order : Ordering),
      catalog.version client.catalogKey = .ok v → catalog'.version client.catalogKey = .ok w →
      compareTexts v w = .ok order → order ≠ .gt →
      resolveClient .inWorkspace registry catalog client = .ok (clientIn client registry.groupA v) →
      resolveClient .inWorkspace registry catalog' client = .ok (clientIn client registry.groupA w) := by
  constructor
  · intro catalog a b c d e f h
    exact ⟨compareTexts_releaseText h, resolveClient_release h⟩
  · intro catalog catalog' v w order hv hw hvw hne hcurrent
    exact resolveClient_of_ne_gt hv hw hvw hne hcurrent

/-- A catalog with a version of the client. -/
def clientCatalog (version : String) : Catalog := Catalog.withVersion {} "nessieClientVersion" version

/-- A number of three digits is not before one of two, and a pre-release after the threshold is in the group
of the threshold. -/
theorem clientCatalog_in_current_group :
    resolveClient .inWorkspace .default (clientCatalog "0.100.0") {} =
        .ok (clientIn {} "org.projectnessie.nessie" "0.100.0") ∧
      resolveClient .inWorkspace .default (clientCatalog "0.101.0-rc.2+5") {} =
        .ok (clientIn {} "org.projectnessie.nessie" "0.101.0-rc.2+5") := by
  obtain ⟨hrelease, hupper⟩ := client_threshold_cut .default {}
  have hbound : ∀ n ∈ [0, 100, 0, 0, 50, 1], n < 2 ^ 64 := by decide
  have hversion : (clientCatalog "0.100.0").version "nessieClientVersion" = .ok (releaseText 0 100 0) := by
    decide +kernel
  have hmin : "0.50.1" = releaseText 0 50 1 := by decide +kernel
  have hcurrent := (hrelease (clientCatalog "0.100.0") 0 100 0 0 50 1 hbound).2 hversion hmin
  have hle : toLex (0, toLex (50, 1)) ≤ toLex (0, toLex (100, 0)) := by decide
  rw [if_pos hle] at hcurrent
  have horder : compareTexts "0.100.0" "0.101.0-rc.2+5" = .ok .lt := by decide +kernel
  exact ⟨hcurrent, hupper _ _ _ _ _ hversion (by decide +kernel) horder (by decide) hcurrent⟩

end Client

end BuildGraph
