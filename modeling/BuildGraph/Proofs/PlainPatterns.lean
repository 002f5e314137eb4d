import BuildGraph.Coverage.Policy

/-!
# Patterns without wildcards inside

A pattern in which no character has a role of its own fits one path, the pattern itself. With a star
behind it, it fits the paths that begin with it; colons, slashes and dots are characters like any other.
A policy of such patterns therefore says which paths it takes in by equality and beginnings alone.
-/

namespace BuildGraph

namespace Pattern

variable {cs path : List Char} {ts : List Token}

/-- Whether a character stands for itself wherever it is in a pattern. -/
def IsPlain (c : Char) : Prop := c ≠ '*' ∧ c ≠ '?' ∧ c ≠ '['

/-! ## Reading -/

/-- Plain characters are read one by one, and what follows them is read behind them. -/
theorem readTokens_append (h : ∀ c ∈ cs, IsPlain c) (budget : Nat) (before : Option Char)
    (rest : List Char) :
    ∃ last, readTokens (cs.length + budget) before (cs ++ rest) =
      (readTokens budget last rest).map (cs.map .char ++ ·) := by
  induction cs generalizing before with
  | nil =>
    refine ⟨before, ?_⟩
    cases hr : readTokens budget before rest <;> simp [hr, Except.map]
  | cons c cs ih =>
    obtain ⟨⟨hstar, hquestion, hbracket⟩, hcs⟩ := List.forall_mem_cons.mp h
    obtain ⟨last, hread⟩ := ih hcs (some c)
    refine ⟨last, ?_⟩
    have hbudget : (c :: cs).length + budget = (cs.length + budget) + 1 := by
      rw [List.length_cons]
      omega
    rw [hbudget, List.cons_append, readTokens, if_neg hquestion, if_neg hstar, if_neg hbracket, hread]
    cases readTokens budget last rest <;> rfl

/-! ## Trying -/

/-- Characters fit the texts that begin with them if what follows fits the rest. -/
theorem run_append_eq_found_iff :
    run (cs.map .char ++ ts) path = .found ↔ ∃ rest, path = cs ++ rest ∧ run ts rest = .found := by
  induction cs generalizing path with
  | nil => simp
  | cons c cs ih =>
    cases path with
    | nil => simp [run]
    | cons d path =>
      rw [List.map_cons, List.cons_append, run]
      by_cases hd : d = c
      · subst hd
        simp [ih]
      · simp [hd]

/-- A pattern that is used up fits the empty rest only. -/
theorem run_nil_eq_found_iff : run [] path = .found ↔ path = [] := by
  cases path <;> simp [run]

/-- A star at the end fits everything. -/
theorem run_anyText (path : List Char) : run [.anyText] path = .found := by
  rw [run]
  induction path with
  | nil => rfl
  | cons c path ih => exact ih

end Pattern

/-- A pattern without brackets and question marks, in which a star stands at most at the end. -/
structure PlainPattern where
  /-- What stands in front of the star. -/
  word : String
  isPlain : ∀ c ∈ word.toList, Pattern.IsPlain c
  /-- Whether there is a star. -/
  isOpen : Bool

namespace PlainPattern

/-- The pattern as it is written. -/
def text (p : PlainPattern) : String := if p.isOpen then p.word ++ "*" else p.word

/-- Whether a path is the word, or begins with it if there is a star. -/
def Covers (p : PlainPattern) (path : String) : Prop :=
  if p.isOpen then p.word.toList <+: path.toList else path = p.word

instance (p : PlainPattern) (path : String) : Decidable (p.Covers path) :=
  inferInstanceAs (Decidable (if p.isOpen then p.word.toList <+: path.toList else path = p.word))

/-- The pattern as it is read. -/
def pattern (p : PlainPattern) : Pattern :=
  ⟨p.word.toList.map .char ++ if p.isOpen then [.anyText] else []⟩

/-- A plain pattern is read as it is meant: its word, and any text at the end if there is a star. -/
theorem parse_text (p : PlainPattern) : Pattern.parse p.text = .ok p.pattern := by
  rw [Pattern.parse, text, pattern]
  cases p.isOpen with
  | false =>
    obtain ⟨last, hread⟩ := Pattern.readTokens_append p.isPlain 0 none []
    rw [List.append_nil, Nat.add_zero] at hread
    rw [if_neg Bool.false_ne_true, if_neg Bool.false_ne_true, hread]
    rfl
  | true =>
    obtain ⟨last, hread⟩ := Pattern.readTokens_append p.isPlain 1 none ['*']
    have hstar : (p.word ++ "*").toList = p.word.toList ++ ['*'] := String.toList_append
    rw [if_pos rfl, if_pos rfl, hstar, List.length_append, List.length_singleton, hread]
    rfl

/-- A plain pattern fits exactly the paths that it covers. -/
theorem fits_pattern_iff (p : PlainPattern) (path : String) : p.pattern.fits path ↔ p.Covers path := by
  rw [Pattern.fits, pattern, Covers, beq_iff_eq, Pattern.run_append_eq_found_iff]
  cases p.isOpen with
  | false => simp [Pattern.run_nil_eq_found_iff, String.toList_inj]
  | true => simp [Pattern.run_anyText, List.IsPrefix, eq_comm]

/-- A star does not stop at slashes, dots or colons. -/
example : (PlainPattern.mk ":nessie" (by simp [Pattern.IsPlain]) true).Covers ":nessie/../été:x" := by
  decide

end PlainPattern

namespace CoveragePolicy

/-- A list of plain patterns is read without a fault. -/
theorem readPatterns_texts (ps : List PlainPattern) :
    readPatterns (ps.map (·.text)) = .ok (ps.map (·.pattern)) := by
  induction ps with
  | nil => rfl
  | cons p ps ih =>
    rw [List.map_cons, readPatterns, p.parse_text, ih]
    rfl

/-- Patterns without wildcards inside make a policy. A project gets coverage tasks exactly if its path is, or
begins with, the word of a pattern that takes it in, and does so for none that takes it out. -/
theorem isEligible_iff_covers (includes excludes : List PlainPattern) :
    ∃ policy, ofTexts (includes.map (·.text)) (excludes.map (·.text)) = .ok policy ∧
      ∀ path, policy.isEligible path ↔
        (∃ p ∈ includes, p.Covers path) ∧ ¬ ∃ p ∈ excludes, p.Covers path := by
  refine ⟨⟨includes.map (·.pattern), excludes.map (·.pattern)⟩, ?_, fun path => ?_⟩
  · rw [ofTexts, readPatterns_texts, readPatterns_texts]
    rfl
  · rw [isEligible]
    simp [PlainPattern.fits_pattern_iff]

/-- What the default settings take in. -/
def defaultIncludes : List PlainPattern :=
  [⟨":nessie-", by simp [Pattern.IsPlain], true⟩, ⟨":iceberg-views", by simp [Pattern.IsPlain], false⟩]

/-- What the default settings take out again. -/
def defaultExcludes : List PlainPattern :=
  [⟨":nessie-bom", by simp [Pattern.IsPlain], false⟩,
    ⟨":nessie-compatibility-tests", by simp [Pattern.IsPlain], false⟩]

/-- By default the projects whose paths begin with `:nessie-` get coverage tasks, and one other. -/
theorem isEligible_by_default :
    ∃ policy, ofTexts ({} : Settings.Coverage).includes ({} : Settings.Coverage).excludes = .ok policy ∧
      ∀ path, policy.isEligible path ↔
        (":nessie-".toList <+: path.toList ∨ path = ":iceberg-views") ∧
          path ≠ ":nessie-bom" ∧ path ≠ ":nessie-compatibility-tests" := by
  obtain ⟨policy, hread, heligible⟩ := isEligible_iff_covers defaultIncludes defaultExcludes
  refine ⟨policy, hread, fun path => ?_⟩
  rw [heligible]
  simp [defaultIncludes, defaultExcludes, PlainPattern.Covers]

end CoveragePolicy

end BuildGraph
