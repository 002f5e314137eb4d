import BuildGraph.Properties
import BuildGraph.Proofs.SortedMap

/-!
# Property files in two parts

A property file may be cut behind any physical line that completes a logical line. The parts are then
read as if each were a file of its own: the first fault of the whole is the first fault of the parts,
its line counted from the start of the whole, and otherwise the second part overrides the first.
Nothing is said of cuts within a logical line.
-/

namespace BuildGraph.Properties

open Text

/-! ## Unfinished lines -/

/-- Whether a logical line is unfinished after a physical one, given whether one was before it. -/
def leavesOpen (unfinished : Bool) (physical : List Char) : Bool :=
  (unfinished || !isDropped (trimStart physical)) && continues (trimStart physical)

/-- Whether the last logical line of a text goes on in whatever follows the text. -/
def endsOpen (content : List Char) : Bool := (lines content).foldl leavesOpen false

/-- The logical line that a physical one completes, and the one that it leaves unfinished. -/
def advance (n : Nat) (pending : Option LogicalLine) (physical : List Char) :
    Option LogicalLine × Option LogicalLine :=
  let body := trimStart physical
  if pending.isNone && isDropped body then (none, none)
  else
    let start := pending.getD ⟨n, []⟩
    let joined := { start with text := start.text ++ withoutMark body }
    if continues body then (none, some joined) else (some joined, none)

/-- Logical lines come one physical line at a time, with the unfinished one handed on. -/
theorem logicalLines_cons (n : Nat) (pending : Option LogicalLine) (physical : List Char)
    (rest : List (List Char)) :
    logicalLines n pending (physical :: rest) =
      (advance n pending physical).1.toList ++
        logicalLines (n + 1) (advance n pending physical).2 rest := by
  rw [logicalLines, advance]
  split
  · rfl
  · dsimp only
    split <;> rfl

/-- Whether a line stays unfinished depends on the text of the physical one, and on whether it goes on
another. -/
theorem isSome_advance (n : Nat) (pending : Option LogicalLine) (physical : List Char) :
    (advance n pending physical).2.isSome = leavesOpen pending.isSome physical := by
  cases pending <;> cases hd : isDropped (trimStart physical) <;>
    cases hc : continues (trimStart physical) <;> simp [advance, leavesOpen, hd, hc]

/-- A physical line adds to what is pending, or starts a logical line of its own number. -/
theorem line_of_advance {n : Nat} {pending : Option LogicalLine} {physical : List Char}
    {l : LogicalLine} (hp : ∀ l ∈ pending, l.line < n)
    (hl : l ∈ (advance n pending physical).1 ∨ l ∈ (advance n pending physical).2) : l.line < n + 1 := by
  have hstart : (pending.getD ⟨n, []⟩).line < n + 1 := by
    cases pending with
    | none => exact Nat.lt_succ_self n
    | some l => exact Nat.lt_succ_of_lt (hp l rfl)
  unfold advance at hl
  dsimp only at hl
  split at hl
  · simp at hl
  · split at hl <;> simp only [Option.mem_def, Option.some.injEq, reduceCtorEq, or_false,
      false_or] at hl <;> rwa [← hl]

/-- What logical lines the first part of a text completes, and what it leaves unfinished, does not depend
on what comes behind it. -/
theorem exists_logicalLines_append (n : Nat) (pending : Option LogicalLine) (ls : List (List Char)) :
    ∃ done rest, (∀ ms, logicalLines n pending (ls ++ ms) =
        done ++ logicalLines (n + ls.length) rest ms) ∧
      rest.isSome = ls.foldl leavesOpen pending.isSome ∧
      ((∀ l ∈ pending, l.line < n) →
        (∀ l ∈ done, l.line < n + ls.length) ∧ ∀ l ∈ rest, l.line < n + ls.length) := by
  induction ls generalizing n pending with
  | nil => exact ⟨[], pending, fun ms => rfl, rfl, fun h => ⟨List.forall_mem_nil _, h⟩⟩
  | cons physical ls ih =>
    obtain ⟨done, rest, hms, hrest, hline⟩ := ih (n + 1) (advance n pending physical).2
    have hlength : n + 1 + ls.length = n + (physical :: ls).length := by
      rw [List.length_cons]
      omega
    rw [hlength] at hms hline
    refine ⟨(advance n pending physical).1.toList ++ done, rest, fun ms => ?_, ?_, fun hp => ?_⟩
    · rw [List.cons_append, logicalLines_cons, hms, List.append_assoc]
    · rw [hrest, isSome_advance, List.foldl_cons]
    · obtain ⟨hdone, hleft⟩ := hline fun l hl => line_of_advance hp (Or.inr hl)
      refine ⟨fun l hl => ?_, hleft⟩
      rcases List.mem_append.mp hl with hl | hl
      · have hnew := line_of_advance hp (Or.inl (Option.mem_toList.mp hl))
        omega
      · exact hdone l hl

/-- Behind a completed logical line, joining starts anew. -/
theorem logicalLines_append (n : Nat) (pending : Option LogicalLine) {ls : List (List Char)}
    (h : ls.foldl leavesOpen pending.isSome = false) (ms : List (List Char)) :
    logicalLines n pending (ls ++ ms) =
      logicalLines n pending ls ++ logicalLines (n + ls.length) none ms := by
  obtain ⟨done, rest, hms, hrest, _⟩ := exists_logicalLines_append n pending ls
  rw [h, Option.isSome_eq_false_iff, Option.isNone_iff_eq_none] at hrest
  subst hrest
  have hdone := hms []
  rw [List.append_nil, logicalLines, List.append_nil] at hdone
  rw [hms, hdone]

/-! ## Numbers of lines -/

/-- A logical line under another number. -/
def LogicalLine.renumber (g : Nat → Nat) (l : LogicalLine) : LogicalLine := { l with line := g l.line }

/-- A fault in a line under another number. -/
def EscapeFault.renumber (g : Nat → Nat) (f : EscapeFault) : EscapeFault := { f with line := g f.line }

/-- A logical line further down. -/
def LogicalLine.shift (k : Nat) (l : LogicalLine) : LogicalLine := { l with line := l.line + k }

/-- A fault further down. -/
def EscapeFault.shift (k : Nat) (f : EscapeFault) : EscapeFault := { f with line := f.line + k }

/-- Numbers of lines are handed on and never looked at. -/
theorem advance_renumber (g : Nat → Nat) (n : Nat) (pending : Option LogicalLine)
    (physical : List Char) :
    advance (g n) (pending.map (·.renumber g)) physical =
      ((advance n pending physical).1.map (·.renumber g),
        (advance n pending physical).2.map (·.renumber g)) := by
  cases pending <;> cases hd : isDropped (trimStart physical) <;>
    cases hc : continues (trimStart physical) <;> simp [advance, hd, hc, LogicalLine.renumber]

/-- How lines are numbered does not matter for the texts of logical lines, as long as one number follows
the other from the first line on. -/
theorem logicalLines_renumber {g : Nat → Nat} {n : Nat} (hg : ∀ m, n ≤ m → g (m + 1) = g m + 1)
    (pending : Option LogicalLine) (ls : List (List Char)) :
    logicalLines (g n) (pending.map (·.renumber g)) ls =
      (logicalLines n pending ls).map (·.renumber g) := by
  induction ls generalizing n pending with
  | nil => cases pending <;> rfl
  | cons physical rest ih =>
    have hrest := ih (fun m hm => hg m (Nat.le_of_succ_le hm)) (advance n pending physical).2
    rw [hg n (Nat.le_refl n)] at hrest
    rw [logicalLines_cons, logicalLines_cons, advance_renumber, hrest, List.map_append,
      Option.toList_map]

/-- Where the numbering starts does not matter for the texts of logical lines. -/
theorem logicalLines_shift (k n : Nat) (pending : Option LogicalLine) (ls : List (List Char)) :
    logicalLines (n + k) (pending.map (·.shift k)) ls =
      (logicalLines n pending ls).map (·.shift k) :=
  logicalLines_renumber (g := (· + k)) (fun m _ => Nat.add_right_comm m 1 k) pending ls

/-- A line reads the same under another number, and a fault in it names that number. -/
theorem pair_renumber (g : Nat → Nat) (l : LogicalLine) :
    pair (l.renumber g) = (pair l).mapError (·.renumber g) := by
  cases hk : unescape (cutKey l.text).1 with
  | error digits => simp [pair, LogicalLine.renumber, hk, Except.mapError, EscapeFault.renumber]
  | ok key =>
    cases hv : unescape (skipSign (cutKey l.text).2) <;>
      simp [pair, LogicalLine.renumber, hk, hv, Except.mapError, EscapeFault.renumber]

/-- Numbers of lines matter for faults only. -/
theorem pairs_renumber (g : Nat → Nat) (ls : List LogicalLine) :
    pairs (ls.map (·.renumber g)) = (pairs ls).mapError (·.renumber g) := by
  induction ls with
  | nil => rfl
  | cons l ls ih =>
    rw [List.map_cons, pairs, pairs, pair_renumber, ih]
    cases pair l with
    | error fault => rfl
    | ok p => cases pairs ls <;> rfl

/-- Lines read the same further down, but for the line that a fault names. -/
theorem pairs_shift (k : Nat) (ls : List LogicalLine) :
    pairs (ls.map (·.shift k)) = (pairs ls).mapError (·.shift k) :=
  pairs_renumber (· + k) ls

/-- Pairs are read one after the other until the first fault. -/
theorem pairs_append (ls ms : List LogicalLine) :
    pairs (ls ++ ms) =
      match pairs ls with
      | .error fault => .error fault
      | .ok ps => (pairs ms).map (ps ++ ·) := by
  induction ls with
  | nil => cases h : pairs ms <;> simp [pairs, h, Except.map]
  | cons l ls ih =>
    rw [List.cons_append, pairs, pairs, ih]
    cases pair l with
    | error fault => rfl
    | ok p => cases pairs ls <;> cases pairs ms <;> rfl

/-! ## Two parts -/

/-- Lines of a text that is empty or ends in a line feed are lines of any longer text. -/
theorem lines_append {a : String} (ha : a = "" ∨ ∃ body, a = body ++ "\n") (b : String) :
    lines (a ++ b).toList = lines a.toList ++ lines b.toList := by
  rcases ha with rfl | ⟨body, rfl⟩
  · simp [lines]
  · simpa using lines_append_newline_cons body.toList b.toList

/-- A file whose first part completes its logical lines is read part by part. -/
theorem parse_append {a : String} (ha : a = "" ∨ ∃ body, a = body ++ "\n")
    (hclosed : endsOpen a.toList = false) (b : String) :
    parse (a ++ b) =
      match parse a, parse b with
      | .error fault, _ => .error fault
      | .ok _, .error fault => .error { fault with line := fault.line + (lines a.toList).length }
      | .ok m, .ok n => .ok (m.override n) := by
  have hlines : logicalLines 1 none (lines (a ++ b).toList) =
      logicalLines 1 none (lines a.toList) ++
        (logicalLines 1 none (lines b.toList)).map (·.shift (lines a.toList).length) := by
    rw [lines_append ha, logicalLines_append 1 none hclosed]
    congr 1
    exact logicalLines_shift _ 1 none _
  unfold parse
  rw [hlines, pairs_append, pairs_shift]
  cases pairs (logicalLines 1 none (lines a.toList)) with
  | error fault => rfl
  | ok ps =>
    cases pairs (logicalLines 1 none (lines b.toList)) with
    | error fault => rfl
    | ok qs => exact congrArg Except.ok (SortedMap.ofList_append ps qs)

/-- A comment that ends in a backslash completes its part, and a fault in the second part is numbered
from the start of the first. -/
theorem parse_append_comment :
    endsOpen "k=1,\\\n  2\n# note \\\n".toList = false ∧
      parse ("k=1,\\\n  2\n# note \\\n" ++ "k=3\nn=\\u12\n") = .error ⟨5, "12"⟩ := by
  have hclosed : endsOpen "k=1,\\\n  2\n# note \\\n".toList = false := by decide
  have hfirst : parse "k=1,\\\n  2\n# note \\\n" = .ok (.ofList [("k", "1,2")]) := by decide
  have hsecond : parse "k=3\nn=\\u12\n" = .error ⟨2, "12"⟩ := by decide
  refine ⟨hclosed, ?_⟩
  rw [parse_append (Or.inr ⟨"k=1,\\\n  2\n# note \\", by decide⟩) hclosed, hfirst, hsecond]
  decide

end BuildGraph.Properties
