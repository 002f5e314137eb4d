/-!
# Lines of a text

A line ends at a line feed, and a carriage return right before that line feed belongs to the line's
end. The last line may lack its end; a text that ends in a line feed has no empty line after it.
-/

namespace BuildGraph.Text

/-- Put a character in front of the first line. -/
def consLine (c : Char) : List (List Char) → List (List Char)
  | [] => [[c]]
  | line :: rest => (c :: line) :: rest

/-- The lines of a text without their ends. -/
def lines : List Char → List (List Char)
  | [] => []
  | '\r' :: '\n' :: cs => [] :: lines cs
  | c :: cs => if c = '\n' then [] :: lines cs else consLine c (lines cs)

/-- A text is empty exactly if it has no line. -/
theorem lines_eq_nil_iff {cs : List Char} : lines cs = [] ↔ cs = [] := by
  fun_cases lines cs with
  | case1 => simp
  | case2 => simp
  | case3 => simp
  | case4 c cs => cases lines cs <;> simp [consLine]

/-- A character in front belongs to the first of all lines, and not to those behind it. -/
theorem consLine_append (c : Char) {ls : List (List Char)} (h : ls ≠ []) (ms : List (List Char)) :
    consLine c (ls ++ ms) = consLine c ls ++ ms := by
  cases ls with
  | nil => exact absurd rfl h
  | cons l ls => rfl

/-- A line feed in front makes an empty first line. -/
theorem lines_newline_cons (cs : List Char) : lines ('\n' :: cs) = [] :: lines cs := by
  simp [lines]

/-- A character that no line ends with is in front of the first line. -/
theorem lines_cons {c : Char} {cs : List Char} (hc : c ≠ '\n')
    (h : c = '\r' → cs.head? ≠ some '\n') : lines (c :: cs) = consLine c (lines cs) := by
  rw [lines, if_neg hc]
  rintro ds rfl rfl
  exact h rfl rfl

/-- A text is cut into lines after a line feed as its two parts are. -/
theorem lines_append_newline_cons (a b : List Char) :
    lines (a ++ '\n' :: b) = lines (a ++ ['\n']) ++ lines b := by
  fun_induction lines a with
  | case1 => simp [lines_newline_cons, lines]
  | case2 cs ih => simp [lines, ih]
  | case3 cs _ ih => simp [lines_newline_cons, ih]
  | case4 c cs hcrlf hc ih =>
    by_cases hlast : c = '\r' ∧ cs = []
    · obtain ⟨rfl, rfl⟩ := hlast
      simp [lines]
    · have hfirst : ∀ rest, c = '\r' → (cs ++ '\n' :: rest).head? ≠ some '\n' := by
        rintro rest rfl e
        cases cs with
        | nil => exact hlast ⟨rfl, rfl⟩
        | cons d ds =>
          obtain rfl : d = '\n' := by simpa using e
          exact hcrlf ds rfl rfl
      have hne : lines (cs ++ ['\n']) ≠ [] := by simp [lines_eq_nil_iff]
      rw [List.cons_append, List.cons_append, lines_cons hc (hfirst b), lines_cons hc (hfirst []), ih,
        consLine_append c hne]

/-- A line without the carriage return that belongs to its end. -/
def withoutReturn (line : List Char) : List Char :=
  if line.getLast? = some '\r' then line.dropLast else line

/-- A line that does not end in a carriage return is kept whole. -/
theorem withoutReturn_of_ne {line : List Char} (h : line.getLast? ≠ some '\r') :
    withoutReturn line = line := if_neg h

/-- One carriage return at the end is dropped, and a second one would stay. -/
theorem withoutReturn_concat (line : List Char) : withoutReturn (line ++ ['\r']) = line := by
  simp [withoutReturn]

/-- Dropping the carriage return looks at the end of a line only. -/
theorem withoutReturn_cons (c : Char) {cs : List Char} (h : cs ≠ []) :
    withoutReturn (c :: cs) = c :: withoutReturn cs := by
  rw [withoutReturn, withoutReturn, List.getLast?_cons_of_ne_nil h, List.dropLast_cons_of_ne_nil h]
  split <;> rfl

/-- A text without line feeds is one line if a line feed follows. -/
theorem lines_append_feed {line : List Char} (hn : '\n' ∉ line) (rest : List Char) :
    lines (line ++ '\n' :: rest) = withoutReturn line :: lines rest := by
  induction line with
  | nil => exact lines_newline_cons rest
  | cons c cs ih =>
    simp only [List.mem_cons, not_or] at hn
    cases cs with
    | nil =>
      by_cases hr : c = '\r'
      · subst hr
        rfl
      · rw [List.singleton_append, lines_cons (Ne.symm hn.1) (absurd · hr), lines_newline_cons]
        simp [consLine, withoutReturn, hr]
    | cons d ds =>
      have hfirst : ((d :: ds) ++ '\n' :: rest).head? ≠ some '\n' := by
        intro e
        obtain rfl : d = '\n' := by simpa using e
        exact hn.2 (List.mem_cons_self ..)
      rw [List.cons_append, lines_cons (Ne.symm hn.1) fun _ => hfirst, ih hn.2,
        withoutReturn_cons c (List.cons_ne_nil d ds)]
      rfl

/-- A text without line feeds and carriage returns is one line. -/
theorem lines_line {line : List Char} (hn : '\n' ∉ line) (hr : '\r' ∉ line) (rest : List Char) :
    lines (line ++ '\n' :: rest) = line :: lines rest := by
  rw [lines_append_feed hn, withoutReturn_of_ne fun e => hr (List.mem_of_getLast? e)]

/-- A text without line feeds is one line if nothing follows, unless it is empty. -/
theorem lines_of_not_mem {line : List Char} (hn : '\n' ∉ line) (hne : line ≠ []) :
    lines line = [line] := by
  induction line with
  | nil => exact absurd rfl hne
  | cons c cs ih =>
    simp only [List.mem_cons, not_or] at hn
    have hfirst : cs.head? ≠ some '\n' := fun e => hn.2 (List.mem_of_head? e)
    rw [lines_cons (Ne.symm hn.1) fun _ => hfirst]
    by_cases h : cs = []
    · rw [h]
      rfl
    · rw [ih hn.2 h]
      rfl

end BuildGraph.Text
