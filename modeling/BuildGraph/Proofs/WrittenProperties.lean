import BuildGraph.Properties
import BuildGraph.Proofs.SortedMap

/-!
# Writing property files

Any pairs of texts can be written to a property file that is read back as the map of these pairs. Blanks,
signs and backslashes of a text are written with a backslash before them, so that none of them is taken
for the start of a comment, the end of a key or the end of a line. Other ways to write the same pairs
are not considered.
-/

namespace BuildGraph.Properties

open Text

/-- Whether a character would be misread if it were written as it is. -/
def isSpecial (c : Char) : Bool :=
  c = '\\' || c = '=' || c = ':' || c = '#' || c = '!' || isBlank c

/-- A character of a key or a value as it is written. -/
def escape (c : Char) : List Char :=
  if c = '\t' then ['\\', 't'] else if c = '\n' then ['\\', 'n'] else if c = '\r' then ['\\', 'r']
  else if c = '\x0c' then ['\\', 'f'] else if isSpecial c then ['\\', c] else [c]

/-- A key or a value as it is written. -/
def escapeAll (cs : List Char) : List Char := cs.flatMap escape

/-- The line of a pair, without its end. -/
def lineOf (entry : String × String) : List Char :=
  escapeAll entry.1.toList ++ '=' :: escapeAll entry.2.toList

/-- A property file with one pair on each line. -/
def write (entries : List (String × String)) : String :=
  .ofList (entries.flatMap fun entry => lineOf entry ++ ['\n'])

/-! ## Single characters -/

/-- A character can be written as it is if it is no backslash, no separator, no start of a comment and no
blank. -/
theorem isSpecial_eq_false_iff {c : Char} :
    isSpecial c = false ↔
      c ≠ '\\' ∧ c ≠ '=' ∧ c ≠ ':' ∧ c ≠ '#' ∧ c ≠ '!' ∧ isBlank c = false := by
  simp [isSpecial, and_assoc]

/-- The gaps between a key and its value are blanks. -/
theorem isBlank_of_isGap {c : Char} (h : isGap c) : isBlank c := by
  simp only [isGap, Bool.or_eq_true, decide_eq_true_eq] at h
  rcases h with (rfl | rfl) | rfl <;> decide

/-- What can be written as it is ends no key. -/
theorem isSeparator_eq_false {c : Char} (h : isSpecial c = false) : isSeparator c = false := by
  obtain ⟨-, he, hc, -, -, hb⟩ := isSpecial_eq_false_iff.mp h
  cases hs : isSeparator c with
  | false => rfl
  | true =>
    have hgap : isGap c := by simpa [isSeparator, isGap, he, hc] using hs
    rw [isBlank_of_isGap hgap] at hb
    cases hb

/-- A character is written as it is, or as a backslash and one character that stands for it. -/
theorem escape_cases (c : Char) :
    (escape c = [c] ∧ isSpecial c = false) ∨
      ∃ d, escape c = ['\\', d] ∧ escaped d = c ∧ d ≠ 'u' ∧ d ≠ '\n' ∧ d ≠ '\r' := by
  unfold escape
  split
  · rename_i h
    exact Or.inr ⟨'t', by simp [h, escaped]⟩
  split
  · rename_i h
    exact Or.inr ⟨'n', by simp [h, escaped]⟩
  split
  · rename_i h
    exact Or.inr ⟨'r', by simp [h, escaped]⟩
  split
  · rename_i h
    exact Or.inr ⟨'f', by simp [h, escaped]⟩
  split
  · rename_i hn hr _ h
    obtain ⟨ht, hn', hr', hf, hu⟩ : c ≠ 't' ∧ c ≠ 'n' ∧ c ≠ 'r' ∧ c ≠ 'f' ∧ c ≠ 'u' := by
      refine ⟨?_, ?_, ?_, ?_, ?_⟩ <;> rintro rfl <;> exact absurd h (by decide)
    exact Or.inr ⟨c, rfl, by simp [escaped, ht, hn', hr', hf], hu, hn, hr⟩
  · rename_i h
    exact Or.inl ⟨rfl, by simpa using h⟩

/-- What is written starts with no blank and no comment sign. -/
theorem head_escape (c : Char) :
    ∃ d ds, escape c = d :: ds ∧ isBlank d = false ∧ d ≠ '#' ∧ d ≠ '!' := by
  rcases escape_cases c with ⟨h, hs⟩ | ⟨d, h, -⟩
  · obtain ⟨-, -, -, hh, hx, hb⟩ := isSpecial_eq_false_iff.mp hs
    exact ⟨c, [], h, hb, hh, hx⟩
  · exact ⟨'\\', [d], h, by decide⟩

/-- No end of a line is written. -/
theorem mem_escape {c d : Char} (h : d ∈ escape c) : d ≠ '\n' ∧ d ≠ '\r' := by
  rcases escape_cases c with ⟨he, hs⟩ | ⟨d', he, -, -, hn, hr⟩
  · rw [he, List.mem_singleton] at h
    subst h
    constructor <;> rintro rfl <;> cases hs
  · rw [he, List.mem_pair] at h
    rcases h with rfl | rfl
    · decide
    · exact ⟨hn, hr⟩

/-- Writing one more character leaves no continuation mark. -/
theorem continues_append_escape {cs : List Char} (h : continues cs = false) (c : Char) :
    continues (cs ++ escape c) = false := by
  rcases escape_cases c with ⟨he, hs⟩ | ⟨d, he, -⟩
  · rw [he]
    exact continues_concat_of_ne (isSpecial_eq_false_iff.mp hs).1 cs
  · rw [he, List.append_cons]
    by_cases hd : d = '\\'
    · rw [hd, continues_concat_concat, h]
    · exact continues_concat_of_ne hd _

/-! ## Keys and values -/

theorem escapeAll_cons (c : Char) (cs : List Char) : escapeAll (c :: cs) = escape c ++ escapeAll cs :=
  List.flatMap_cons

/-- A written text has no end of a line in it. -/
theorem mem_escapeAll {cs : List Char} {d : Char} (h : d ∈ escapeAll cs) : d ≠ '\n' ∧ d ≠ '\r' := by
  obtain ⟨c, _, hd⟩ := List.mem_flatMap.mp h
  exact mem_escape hd

/-- A written text does not make its line go on, even if it ends in a backslash. -/
theorem continues_append_escapeAll {xs : List Char} (h : continues xs = false) (cs : List Char) :
    continues (xs ++ escapeAll cs) = false := by
  induction cs generalizing xs with
  | nil => simpa [escapeAll] using h
  | cons c cs ih =>
    rw [escapeAll_cons, ← List.append_assoc]
    exact ih (continues_append_escape h c)

/-- Escapes are undone. -/
theorem unescape_escapeAll (cs : List Char) : unescape (escapeAll cs) = .ok cs := by
  induction cs with
  | nil => rfl
  | cons c cs ih =>
    rw [escapeAll_cons]
    rcases escape_cases c with ⟨he, hs⟩ | ⟨d, he, hd, hu, -⟩
    · rw [he, List.singleton_append, unescape_plain (isSpecial_eq_false_iff.mp hs).1, ih]
      rfl
    · rw [he, List.cons_append, List.singleton_append, unescape_escaped hu, ih, hd]
      rfl

/-- A written key ends where the sign after it stands. -/
theorem cutKey_escapeAll (cs rest : List Char) :
    cutKey (escapeAll cs ++ '=' :: rest) = (escapeAll cs, '=' :: rest) := by
  induction cs with
  | nil => exact cutKey_separator (by decide) rest
  | cons c cs ih =>
    rw [escapeAll_cons, List.append_assoc]
    rcases escape_cases c with ⟨he, hs⟩ | ⟨d, he, -⟩
    · rw [he, List.singleton_append, List.singleton_append,
        cutKey_plain (isSpecial_eq_false_iff.mp hs).1 (isSeparator_eq_false hs), ih]
    · rw [he, List.cons_append, List.singleton_append, cutKey_escaped, ih]
      rfl

/-- A written value follows its sign without a gap. -/
theorem skipSign_escapeAll (cs : List Char) : skipSign ('=' :: escapeAll cs) = escapeAll cs := by
  have hsign : ('=' :: escapeAll cs).dropWhile isGap = '=' :: escapeAll cs :=
    List.dropWhile_cons_of_neg (by decide)
  have hvalue : (escapeAll cs).dropWhile isGap = escapeAll cs := by
    cases cs with
    | nil => rfl
    | cons c cs =>
      obtain ⟨d, ds, he, hb, -⟩ := head_escape c
      rw [escapeAll_cons, he]
      refine List.dropWhile_cons_of_neg fun hg => ?_
      rw [isBlank_of_isGap hg] at hb
      cases hb
  rw [skipSign, hsign]
  exact hvalue

/-! ## Lines -/

/-- The line of a pair is read back as that pair, in whatever line it stands. -/
theorem pair_lineOf (n : Nat) (entry : String × String) : pair ⟨n, lineOf entry⟩ = .ok entry := by
  simp only [pair, lineOf, cutKey_escapeAll, unescape_escapeAll, skipSign_escapeAll, String.ofList_toList]

/-- The line of a pair starts with neither a blank nor a comment, even if the key is empty. -/
theorem head_lineOf (entry : String × String) :
    ∃ d ds, lineOf entry = d :: ds ∧ isBlank d = false ∧ d ≠ '#' ∧ d ≠ '!' := by
  unfold lineOf
  cases entry.1.toList with
  | nil => exact ⟨'=', _, rfl, by decide⟩
  | cons c cs =>
    obtain ⟨d, ds, he, hd⟩ := head_escape c
    rw [escapeAll_cons, he]
    exact ⟨d, _, rfl, hd⟩

/-- The line of a pair is neither trimmed nor dropped nor continued. -/
theorem logicalLines_lineOf (n : Nat) (entry : String × String) (ls : List (List Char)) :
    logicalLines n none (lineOf entry :: ls) = ⟨n, lineOf entry⟩ :: logicalLines (n + 1) none ls := by
  obtain ⟨d, ds, hd, hb, hh, hx⟩ := head_lineOf entry
  have htrim : trimStart (lineOf entry) = lineOf entry := by
    rw [hd]
    exact trimStart_cons_of_not_blank hb ds
  have hdropped : isDropped (lineOf entry) = false := by
    rw [hd]
    simp [isDropped, hh, hx]
  have hcontinues : continues (lineOf entry) = false := by
    rw [lineOf, List.append_cons]
    exact continues_append_escapeAll (continues_concat_of_ne (by decide) _) _
  simp [logicalLines, htrim, hdropped, hcontinues, withoutMark]

/-- Each pair is one line of the file. -/
theorem lines_write_cons (entry : String × String) (entries : List (String × String)) :
    lines (write (entry :: entries)).toList = lineOf entry :: lines (write entries).toList := by
  have hends : ∀ d ∈ lineOf entry, d ≠ '\n' ∧ d ≠ '\r' := by
    intro d hd
    rcases List.mem_append.mp hd with hd | hd
    · exact mem_escapeAll hd
    · rcases List.mem_cons.mp hd with rfl | hd
      · decide
      · exact mem_escapeAll hd
  have hline := lines_line (fun h => (hends _ h).1 rfl) (fun h => (hends _ h).2 rfl)
    (write entries).toList
  simpa [write] using hline

/-- Written pairs are read back one after the other. -/
theorem pairs_write (n : Nat) (entries : List (String × String)) :
    pairs (logicalLines n none (lines (write entries).toList)) = .ok entries := by
  induction entries generalizing n with
  | nil => rfl
  | cons entry entries ih =>
    rw [lines_write_cons, logicalLines_lineOf, pairs, pair_lineOf, ih]
    rfl

/-- A written file is read back as the map of its pairs, in which the last value of a key counts. -/
theorem parse_write (entries : List (String × String)) :
    parse (write entries) = .ok (.ofList entries) ∧
      ∀ key, (SortedMap.ofList entries).find? key =
        (entries.reverse.find? (·.1 = key)).map (·.2) := by
  refine ⟨?_, SortedMap.find?_ofList entries⟩
  rw [parse, pairs_write]
  rfl

example : write [("a b", "#\t")] = "a\\ b=\\#\\t\n" := by decide

end BuildGraph.Properties
