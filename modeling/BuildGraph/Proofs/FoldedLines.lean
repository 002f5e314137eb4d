import BuildGraph.Proofs.PropertyLines

/-!
# Folding lines of property files

A line of a property file may be cut in two at any place, unless it is dropped: the first part gets a
continuation mark, and the second one, which may not start with a blank, is indented as one likes. The
file means the same as before, and a fault in it stays the same but for the number of its line, if that
is further down. Cutting behind an odd number of backslashes is another matter, for one more would make
their number even.
-/

namespace BuildGraph.Properties

open Text

variable {xs ys ws : List Char}

/-! ## Continuation marks -/

/-- Behind an even number of backslashes, what comes next tells whether a line goes on. -/
theorem continues_append (hx : trailingBackslashes xs % 2 = 0) (ys : List Char) :
    continues (xs ++ ys) = continues ys := by
  rw [continues, continues, trailingBackslashes_append_mod hx]

/-- Behind an even number of backslashes, a continuation mark at the end is the mark of what comes next. -/
theorem withoutMark_append (hx : trailingBackslashes xs % 2 = 0) (ys : List Char) :
    withoutMark (xs ++ ys) = xs ++ withoutMark ys := by
  rw [withoutMark, withoutMark, continues_append hx]
  split
  · rename_i h
    have hne : ys ≠ [] := by
      rintro rfl
      cases h
    exact List.dropLast_append_of_ne_nil hne
  · rfl

/-! ## Blanks -/

/-- What starts with no blank is not trimmed. -/
theorem trimStart_of_head {cs : List Char} (h : ∀ c ∈ cs.head?, isBlank c = false) :
    trimStart cs = cs := by
  cases cs with
  | nil => rfl
  | cons c cs => exact trimStart_cons_of_not_blank (h c rfl) cs

/-- A trimmed text starts with no blank. -/
theorem head_trimStart {cs : List Char} {c : Char} (h : c ∈ (trimStart cs).head?) :
    isBlank c = false := by
  have hhead := List.head?_dropWhile_not isBlank cs
  rw [show (cs.dropWhile isBlank).head? = some c from h] at hhead
  simpa using hhead

/-- Blanks in front do not matter. -/
theorem trimStart_append (hw : ∀ c ∈ ws, isBlank c = true) (cs : List Char) :
    trimStart (ws ++ cs) = trimStart cs :=
  List.dropWhile_append_of_pos hw

/-- A carriage return at the end is blank, so it does not matter either if nothing else is there. -/
theorem trimStart_withoutReturn_append (hw : ∀ c ∈ ws, isBlank c = true)
    (hr : ys.getLast? ≠ some '\r') : trimStart (withoutReturn (ws ++ ys)) = trimStart ys := by
  cases ys with
  | nil =>
    have hblank : ∀ c ∈ withoutReturn ws, isBlank c = true := by
      unfold withoutReturn
      split
      · exact fun c hc => hw c (List.dropLast_subset ws hc)
      · exact hw
    simpa using trimStart_append hblank []
  | cons d ds =>
    have hlast : (ws ++ d :: ds).getLast? ≠ some '\r' := by
      rwa [List.getLast?_append_of_ne_nil ws (List.cons_ne_nil d ds)]
    rw [withoutReturn_of_ne hlast, trimStart_append hw]

/-! ## One line in two parts -/

/-- The blanks that a physical line starts with do not matter. -/
theorem advance_congr {physical other : List Char} (h : trimStart physical = trimStart other) (n : Nat)
    (pending : Option LogicalLine) : advance n pending physical = advance n pending other := by
  rw [advance, advance, h]

/-- The first part leaves unfinished what the second part goes on with. -/
theorem advance_fold {n : Nat} {pending : Option LogicalLine} {physical : List Char}
    (hkept : (pending.isNone && isDropped (trimStart physical)) = false)
    (hxy : trimStart physical = xs ++ ys) (hx : trailingBackslashes xs % 2 = 0)
    (hy : ∀ c ∈ ys.head?, isBlank c = false) :
    ∃ unfinished, advance n pending (xs ++ ['\\']) = (none, some unfinished) ∧
      advance (n + 1) (some unfinished) ys = advance n pending physical := by
  rw [hxy] at hkept
  have htrim : trimStart (xs ++ ['\\']) = xs ++ ['\\'] := by
    refine trimStart_of_head fun c hc => ?_
    cases xs with
    | nil =>
      obtain rfl := Option.some.inj hc
      decide
    | cons d ds =>
      have hhead : c ∈ (trimStart physical).head? := by
        rw [hxy]
        exact hc
      exact head_trimStart hhead
  have hfirst : (pending.isNone && isDropped (xs ++ ['\\'])) = false := by
    cases xs with
    | nil => exact Bool.and_false _
    | cons d ds => exact hkept
  refine ⟨{ pending.getD ⟨n, []⟩ with text := (pending.getD ⟨n, []⟩).text ++ xs }, ?_, ?_⟩
  · have hmark : continues (xs ++ ['\\']) = true := (continues_append hx _).trans rfl
    have hplain : withoutMark (xs ++ ['\\']) = xs := (withoutMark_append hx _).trans (List.append_nil xs)
    simp only [advance, htrim, hfirst, hmark, hplain]
    rfl
  · simp only [advance, trimStart_of_head hy, hkept, hxy, continues_append hx, withoutMark_append hx,
      Option.isNone_some, Bool.false_and, Option.getD_some, List.append_assoc]

/-- The numbers of lines when the line of number `k` is made two. -/
def makeRoom (k n : Nat) : Nat := if n ≤ k then n else n + 1

/-- Lines up to the one that is cut keep their numbers. -/
theorem renumber_makeRoom {k : Nat} {l : LogicalLine} (h : l.line ≤ k) :
    l.renumber (makeRoom k) = l := by
  rw [LogicalLine.renumber, makeRoom, if_pos h]

/-- A line that is still unfinished at the cut keeps its number. -/
theorem map_renumber_makeRoom {k : Nat} {o : Option LogicalLine} (h : ∀ l ∈ o, l.line ≤ k) :
    o.map (·.renumber (makeRoom k)) = o := by
  cases o with
  | none => rfl
  | some l => rw [Option.map_some, renumber_makeRoom (h l rfl)]

/-- Logical lines below the two parts move down by one line. Of the lines behind the first part it only
matters how they go on what it leaves unfinished. -/
theorem logicalLines_fold {n : Nat} {pending : Option LogicalLine} {physical : List Char}
    (hp : ∀ l ∈ pending, l.line < n)
    (hkept : (pending.isNone && isDropped (trimStart physical)) = false)
    (hxy : trimStart physical = xs ++ ys) (hx : trailingBackslashes xs % 2 = 0)
    (hy : ∀ c ∈ ys.head?, isBlank c = false) {later rest : List (List Char)}
    (hlater : ∀ unfinished, logicalLines (n + 1) (some unfinished) later =
      logicalLines (n + 1) (some unfinished) (ys :: rest)) :
    logicalLines n pending ((xs ++ ['\\']) :: later) =
      (logicalLines n pending (physical :: rest)).map (·.renumber (makeRoom n)) := by
  obtain ⟨unfinished, hfirst, hsecond⟩ := advance_fold (n := n) hkept hxy hx hy
  have hdone : ∀ l ∈ (advance n pending physical).1, l.line ≤ n := fun l hl =>
    Nat.le_of_lt_succ (line_of_advance hp (Or.inl hl))
  have hleft : ∀ l ∈ (advance n pending physical).2, l.line ≤ n := fun l hl =>
    Nat.le_of_lt_succ (line_of_advance hp (Or.inr hl))
  have hrest := logicalLines_renumber (g := makeRoom n) (n := n + 1)
    (fun m hm => by simp only [makeRoom]; rw [if_neg (by omega), if_neg (by omega)])
    (advance n pending physical).2 rest
  rw [map_renumber_makeRoom hleft, show makeRoom n (n + 1) = n + 1 + 1 from if_neg (by omega)] at hrest
  rw [logicalLines_cons, logicalLines_cons, hfirst, hlater, logicalLines_cons, hsecond, List.map_append,
    hrest, ← Option.toList_map, map_renumber_makeRoom hdone]
  rfl

/-! ## Lines of a content -/

/-- The first part of a line with its mark is a line, whichever end it gets. -/
theorem lines_marked {x feed : String} (hn : '\n' ∉ x.toList) (hfeed : feed = "\n" ∨ feed = "\r\n")
    (after : String) :
    lines (x ++ "\\" ++ feed ++ after).toList = (x.toList ++ ['\\']) :: lines after.toList := by
  have hmark : '\n' ∉ x.toList ++ ['\\'] := by simpa using hn
  rcases hfeed with rfl | rfl
  · have hlines := lines_append_feed hmark after.toList
    rw [withoutReturn_of_ne (by simp)] at hlines
    rw [← hlines]
    simp
  · have hreturn : '\n' ∉ x.toList ++ ['\\'] ++ ['\r'] := by simpa using hn
    have hlines := lines_append_feed hreturn after.toList
    rw [withoutReturn_concat] at hlines
    rw [← hlines]
    simp

/-- Whether a content has a line, with its end, between what is before and after it. -/
structure HasLine (before line ending after : String) : Prop where
  start : before = "" ∨ ∃ body, before = body ++ "\n"
  noFeed : '\n' ∉ line.toList
  /-- A carriage return right before a line feed is not of the line, and the last line may lack its
  end. -/
  stop : ending = "\r\n" ∨ (ending = "\n" ∧ line.toList.getLast? ≠ some '\r') ∨
    (ending = "" ∧ after = "" ∧ line ≠ "")

namespace HasLine

variable {before line ending after : String}

/-- The text of the line is followed by its end, and then come the other lines. -/
theorem lines_eq (h : HasLine before line ending after) :
    lines (line ++ ending ++ after).toList = line.toList :: lines after.toList := by
  rcases h.stop with rfl | ⟨rfl, hr⟩ | ⟨rfl, rfl, hne⟩
  · have hn : '\n' ∉ line.toList ++ ['\r'] := by simpa using h.noFeed
    simpa [withoutReturn_concat] using lines_append_feed hn after.toList
  · simpa [withoutReturn_of_ne hr] using lines_append_feed h.noFeed after.toList
  · have hline : line.toList ≠ [] := fun e => hne (String.toList_injective e)
    simpa [lines] using lines_of_not_mem h.noFeed hline

/-- A content starts with a line, unless it is empty. -/
theorem exists_first {content : String} (hne : content ≠ "") :
    ∃ line ending after, HasLine "" line ending after ∧ content = line ++ ending ++ after := by
  by_cases hn : '\n' ∈ content.toList
  · obtain ⟨front, back, hcontent, hfront⟩ := List.eq_append_cons_of_mem hn
    by_cases hr : front.getLast? = some '\r'
    · obtain ⟨line, rfl⟩ := List.getLast?_eq_some_iff.mp hr
      have hline : '\n' ∉ line := fun hc => hfront (List.mem_append_left _ hc)
      refine ⟨.ofList line, "\r\n", .ofList back, ⟨Or.inl rfl, by simpa using hline, Or.inl rfl⟩, ?_⟩
      exact String.toList_injective (by simp [hcontent])
    · refine ⟨.ofList front, "\n", .ofList back,
        ⟨Or.inl rfl, by simpa using hfront, Or.inr (Or.inl ⟨rfl, by simpa using hr⟩)⟩, ?_⟩
      exact String.toList_injective (by simp [hcontent])
  · exact ⟨content, "", "", ⟨Or.inl rfl, hn, Or.inr (Or.inr ⟨rfl, rfl, hne⟩)⟩, by simp⟩

/-- What follows a line starts a line, unless nothing does. -/
theorem ends_feed (h : HasLine before line ending after) (hafter : after ≠ "") :
    ∃ body, line ++ ending = body ++ "\n" := by
  rcases h.stop with rfl | ⟨rfl, -⟩ | ⟨-, rfl, -⟩
  · exact ⟨line ++ "\r", by rw [String.append_assoc]; rfl⟩
  · exact ⟨line, rfl⟩
  · exact absurd rfl hafter

/-- Each line of a content is somewhere in it. -/
theorem exists_of_mem {content : String} {l : List Char} (hl : l ∈ lines content.toList) :
    ∃ before line ending after, line.toList = l ∧ HasLine before line ending after ∧
      content = before ++ line ++ ending ++ after := by
  induction hk : (lines content.toList).length generalizing content with
  | zero => simp [List.eq_nil_of_length_eq_zero hk] at hl
  | succ k ih =>
    have hne : content ≠ "" := by
      rintro rfl
      simp [lines] at hl
    obtain ⟨first, feed, rest, hfirst, rfl⟩ := exists_first hne
    rw [hfirst.lines_eq] at hl hk
    rcases List.mem_cons.mp hl with rfl | hl
    · exact ⟨"", first, feed, rest, rfl, hfirst, by simp⟩
    · obtain ⟨before, line, ending, after, hline, h, hrest⟩ := ih hl (Nat.succ.inj hk)
      have hrest' : rest ≠ "" := by
        rintro rfl
        simp [lines] at hl
      refine ⟨first ++ feed ++ before, line, ending, after, hline, ⟨Or.inr ?_, h.noFeed, h.stop⟩, ?_⟩
      · rcases h.start with rfl | ⟨body, rfl⟩
        · simpa using hfirst.ends_feed hrest'
        · exact ⟨first ++ feed ++ body, by simp only [String.append_assoc]⟩
      · rw [hrest]
        simp only [String.append_assoc]

/-- Neither part of a line has a line feed. -/
theorem noFeed_of_trimStart (h : HasLine before line ending after) {x y : String}
    (hxy : trimStart line.toList = x.toList ++ y.toList) : '\n' ∉ x.toList ∧ '\n' ∉ y.toList := by
  have hmem : '\n' ∉ x.toList ++ y.toList := fun hc =>
    h.noFeed ((List.dropWhile_suffix isBlank).subset (hxy ▸ hc : '\n' ∈ trimStart line.toList))
  simpa using hmem

/-- With other blanks before it, the last part of a line goes on what is unfinished as it would by
itself, even if nothing is left of it. -/
theorem logicalLines_indent (h : HasLine before line ending after) {x y w : String}
    (hxy : trimStart line.toList = x.toList ++ y.toList)
    (hw : ∀ c ∈ w.toList, isBlank c = true ∧ c ≠ '\n') (n : Nat) (unfinished : LogicalLine) :
    logicalLines n (some unfinished) (lines (w ++ y ++ ending ++ after).toList) =
      logicalLines n (some unfinished) (y.toList :: lines after.toList) := by
  have hn : '\n' ∉ w.toList ++ y.toList := fun hmem =>
    (List.mem_append.mp hmem).elim (fun hc => (hw _ hc).2 rfl) (h.noFeed_of_trimStart hxy).2
  have hblank : ∀ c ∈ w.toList, isBlank c = true := fun c hc => (hw c hc).1
  have hcongr : ∀ {physical}, trimStart physical = trimStart y.toList →
      logicalLines n (some unfinished) (physical :: lines after.toList) =
        logicalLines n (some unfinished) (y.toList :: lines after.toList) := by
    intro physical htrim
    rw [logicalLines_cons, logicalLines_cons, advance_congr htrim]
  have htrim : trimStart (w.toList ++ y.toList) = trimStart y.toList := trimStart_append hblank _
  rcases h.stop with rfl | ⟨rfl, hr⟩ | ⟨rfl, rfl, -⟩
  · have hn' : '\n' ∉ w.toList ++ y.toList ++ ['\r'] := by simpa using hn
    have hlines := lines_append_feed hn' after.toList
    rw [withoutReturn_concat] at hlines
    rw [← hcongr htrim, ← hlines]
    simp
  · have hlines := lines_append_feed hn after.toList
    have hlast : y.toList.getLast? ≠ some '\r' := by
      obtain ⟨front, hfront⟩ : y.toList <:+ line.toList :=
        (hxy ▸ List.suffix_append x.toList y.toList).trans (List.dropWhile_suffix _)
      intro e
      refine hr ?_
      rw [← hfront, List.getLast?_append, e]
      rfl
    have hplain := trimStart_withoutReturn_append hblank hlast
    rw [← hcongr hplain, ← hlines]
    simp
  · rw [← hcongr htrim]
    by_cases hempty : w.toList ++ y.toList = []
    · -- The second part is no line at all then, and what is unfinished ends with the file.
      simp [hempty, lines, logicalLines, trimStart, continues, trailingBackslashes, withoutMark]
    · simp [lines_of_not_mem hn hempty, lines]

end HasLine

/-- A line that is not dropped may be cut in two where an even number of backslashes ends. The first part
ends in a continuation mark, and any blanks may stand before the second part, which starts with none
itself. The same pairs are read, or the same fault is found, of which at most the line is another. -/
theorem parse_fold {before line ending after x y w feed : String}
    (h : HasLine before line ending after)
    (hkept : endsOpen before.toList = true ∨ isDropped (trimStart line.toList) = false)
    (hxy : trimStart line.toList = x.toList ++ y.toList) (hx : trailingBackslashes x.toList % 2 = 0)
    (hy : ∀ c ∈ y.toList.head?, isBlank c = false)
    (hw : ∀ c ∈ w.toList, isBlank c = true ∧ c ≠ '\n') (hfeed : feed = "\n" ∨ feed = "\r\n") :
    parse (before ++ (x ++ "\\" ++ feed ++ (w ++ y)) ++ ending ++ after) =
      (parse (before ++ line ++ ending ++ after)).mapError
        (·.renumber (makeRoom ((lines before.toList).length + 1))) := by
  obtain ⟨done, rest, hbefore, hopen, hline⟩ :=
    exists_logicalLines_append 1 none (lines before.toList)
  obtain ⟨hdone, hrest⟩ := hline fun l hl => by cases hl
  rw [Nat.add_comm 1] at hbefore hdone hrest
  have hfirst := lines_marked (h.noFeed_of_trimStart hxy).1 hfeed (w ++ y ++ ending ++ after)
  have hkept' : (rest.isNone && isDropped (trimStart line.toList)) = false := by
    rcases hkept with ho | hd
    · rw [← Option.not_isSome, hopen, Option.isSome_none, ← endsOpen, ho]
      rfl
    · rw [hd, Bool.and_false]
  have hfold : logicalLines 1 none
        (lines (before ++ (x ++ "\\" ++ feed ++ (w ++ y)) ++ ending ++ after).toList) =
      (logicalLines 1 none (lines (before ++ line ++ ending ++ after).toList)).map
        (·.renumber (makeRoom ((lines before.toList).length + 1))) := by
    have hsame : done.map (·.renumber (makeRoom ((lines before.toList).length + 1))) = done :=
      (List.map_congr_left fun l hl => renumber_makeRoom (Nat.le_of_lt (hdone l hl))).trans
        (List.map_id done)
    calc logicalLines 1 none
          (lines (before ++ (x ++ "\\" ++ feed ++ (w ++ y)) ++ ending ++ after).toList)
      _ = logicalLines 1 none (lines before.toList ++
            (x.toList ++ ['\\']) :: lines (w ++ y ++ ending ++ after).toList) := by
        rw [← hfirst, ← lines_append h.start]
        simp only [String.append_assoc]
      _ = done ++ (logicalLines ((lines before.toList).length + 1) rest
            (line.toList :: lines after.toList)).map
              (·.renumber (makeRoom ((lines before.toList).length + 1))) := by
        rw [hbefore, logicalLines_fold hrest hkept' hxy hx hy (h.logicalLines_indent hxy hw _)]
      _ = (logicalLines 1 none (lines before.toList ++ line.toList :: lines after.toList)).map
            (·.renumber (makeRoom ((lines before.toList).length + 1))) := by
        rw [hbefore, List.map_append, hsame]
      _ = _ := by
        rw [← h.lines_eq, ← lines_append h.start]
        simp only [String.append_assoc]
  rw [parse, parse, hfold, pairs_renumber]
  cases pairs (logicalLines 1 none (lines (before ++ line ++ ending ++ after).toList)) <;> rfl

/-- A line that goes on another one is cut before what would be a comment elsewhere, and the fault further
down is found one line later. -/
theorem parse_fold_continued :
    HasLine "k=a,\\\n" "  b#c" "\r\n" "n=\\u12\n" ∧
      parse "k=a,\\\n  b#c\r\nn=\\u12\n" = .error ⟨3, "12"⟩ ∧
      parse "k=a,\\\nb\\\n\t #c\r\nn=\\u12\n" = .error ⟨4, "12"⟩ := by
  have hline : HasLine "k=a,\\\n" "  b#c" "\r\n" "n=\\u12\n" :=
    ⟨Or.inr ⟨"k=a,\\", by decide⟩, by decide, Or.inl rfl⟩
  have hwhole : parse "k=a,\\\n  b#c\r\nn=\\u12\n" = .error ⟨3, "12"⟩ := by decide
  refine ⟨hline, hwhole, ?_⟩
  have hstart : ∀ c ∈ "#c".toList.head?, isBlank c = false := by
    rintro c ⟨⟩
    decide
  have hindent : ∀ c ∈ "\t ".toList, isBlank c = true ∧ c ≠ '\n' := by
    intro c hc
    rcases List.mem_pair.mp hc with rfl | rfl <;> decide
  have hfold := @parse_fold _ _ _ _ "b" "#c" "\t " "\n" hline (Or.inl (by decide)) (by decide)
    (by decide) hstart hindent (Or.inl rfl)
  rw [show "k=a,\\\n" ++ "  b#c" ++ "\r\n" ++ "n=\\u12\n" = "k=a,\\\n  b#c\r\nn=\\u12\n" by decide,
    hwhole] at hfold
  exact hfold

end BuildGraph.Properties
