import BuildGraph.Path
import BuildGraph.Proofs.TextFields

/-!
# The components of a path

Two texts may name the same place: slashes may be doubled or stand at the end, and a dot between slashes
says nothing. What counts are the components. A path below a directory has the components of the
directory in front of its own, so that paths below two directories that differ in their last component
are different, whatever comes after it.
-/

namespace BuildGraph

namespace Path

variable {base dir path sub name other : String}

/-! ## Joining -/

/-- A path with a slash behind it, if it needs one. -/
def opened (base : String) : String := if isOpen base then base else base ++ "/"

/-- What does not start at the root is put behind a slash. -/
theorem join_eq (h : isAbsolute sub = false) (base : String) : join base sub = opened base ++ sub := by
  rw [join, if_neg (by simp [h]), opened]
  split <;> rfl

/-- An opened path ends in a slash, unless it is empty. -/
theorem opened_eq_append (h : base ≠ "") : ∃ start, opened base = start ++ "/" := by
  unfold opened
  split
  · rename_i ho
    have hlast : base.toList.getLast? = some '/' := by simpa [isOpen, h] using ho
    obtain ⟨start, hstart⟩ := List.getLast?_eq_some_iff.mp hlast
    refine ⟨.ofList start, String.toList_injective ?_⟩
    rw [hstart, String.toList_append, String.toList_ofList]
    rfl
  · exact ⟨base, rfl⟩

/-- An opened path needs no further slash. -/
theorem isOpen_opened (base : String) : isOpen (opened base) = true := by
  unfold opened
  split
  · assumption
  · simp [isOpen]

/-- Whether a path needs a slash is a matter of its end. -/
theorem isOpen_append (h : sub ≠ "") (base : String) : isOpen (base ++ sub) = isOpen sub := by
  have hlist : sub.toList ≠ [] := fun e => h (String.toList_injective e)
  have hlast : sub.toList.getLast?.isSome := by simpa using hlist
  have hempty : sub.isEmpty = false := by simp [h]
  have hwhole : (base ++ sub).isEmpty = false := by simp [h]
  rw [isOpen, isOpen, hempty, hwhole, String.toList_append, List.getLast?_append,
    Option.or_of_isSome hlast]

/-- Joining twice puts one slash behind each path that needs one. -/
theorem join_join (hs : isAbsolute sub = false) (hn : isAbsolute name = false) (base : String) :
    join (join base sub) name = opened base ++ (opened sub ++ name) := by
  rw [join_eq hs, join_eq hn]
  by_cases h : sub = ""
  · rw [h, String.append_empty, opened, if_pos (isOpen_opened base), show opened "" = "" by decide,
      String.empty_append]
  · rw [opened, isOpen_append h, opened.eq_1 sub]
    split <;> simp only [String.append_assoc]

/-- Two texts that do not start at the root make none that does, even if the first one is empty. -/
theorem isAbsolute_append (hb : isAbsolute base = false) (hs : isAbsolute sub = false) :
    isAbsolute (base ++ sub) = false := by
  rw [isAbsolute, String.toList_append]
  cases h : base.toList with
  | nil => exact hs
  | cons c cs => rwa [isAbsolute, h] at hb

/-- What something follows tells whether a path starts at the root. -/
theorem isAbsolute_append_of_ne (h : base ≠ "") (rest : String) :
    isAbsolute (base ++ rest) = isAbsolute base := by
  have hlist : base.toList ≠ [] := fun e => h (String.toList_injective e)
  have hhead : base.toList.head?.isSome := by simpa using hlist
  rw [isAbsolute, isAbsolute, String.toList_append, List.head?_append, Option.or_of_isSome hhead]

/-- A slash behind a path does not change where it starts. -/
theorem isAbsolute_opened (h : base ≠ "") : isAbsolute (opened base) = isAbsolute base := by
  unfold opened
  split
  · rfl
  · exact isAbsolute_append_of_ne h "/"

/-! ## Below a directory -/

/-- Whether a path is that of a directory, a slash, and anything else. -/
def Below (dir path : String) : Prop := ∃ rest, path = dir ++ "/" ++ rest

/-- What is joined to a directory is below it. -/
theorem below_join_self (hd : isOpen dir = false) (hs : isAbsolute sub = false) :
    Below dir (join dir sub) := by
  refine ⟨sub, ?_⟩
  rw [join_eq hs, opened, hd]
  rfl

/-- What is joined to a path below a directory is below it. -/
theorem Below.join (h : Below dir path) (hs : isAbsolute sub = false) : Below dir (join path sub) := by
  obtain ⟨rest, rfl⟩ := h
  rw [join_eq hs, opened]
  split
  · exact ⟨rest ++ sub, by simp only [String.append_assoc]⟩
  · exact ⟨rest ++ "/" ++ sub, by simp only [String.append_assoc]⟩

/-! ## Components -/

/-- The pieces between slashes that say something. -/
def proper (pieces : List (List Char)) : List (List Char) :=
  pieces.filter fun piece => piece ≠ [] ∧ piece ≠ ['.']

/-- The names in a path. At the very start a dot counts as one. -/
def names (path : String) : List (List Char) :=
  match Text.fields '/' path.toList with
  | [] => []
  | first :: pieces => [first].filter (· ≠ []) ++ proper pieces

/-- What two paths have in common if they name the same place: whether they start at the root, and their
names. -/
def components (path : String) : Bool × List (List Char) := (isAbsolute path, names path)

example : components "a//b/./c/" = components "a/b/c" := by decide +kernel
example : components "./a" ≠ components "a" := by decide +kernel

/-- Behind a slash, names come in addition; a dot there says nothing. -/
theorem names_append (path rest : String) :
    names (path ++ "/" ++ rest) = names path ++ proper (Text.fields '/' rest.toList) := by
  have hfields : Text.fields '/' (path ++ "/" ++ rest).toList =
      Text.fields '/' path.toList ++ Text.fields '/' rest.toList := by
    rw [← Text.fields_append]
    simp
  rw [names, hfields, names]
  cases hf : Text.fields '/' path.toList with
  | nil => exact absurd hf (Text.fields_ne_nil _ _)
  | cons first pieces => simp [proper]

/-- A slash at the end does not count. -/
theorem names_append_slash (path : String) : names (path ++ "/") = names path := by
  have h := names_append path ""
  rw [String.append_empty] at h
  rw [h]
  simp [proper, Text.fields]

/-- Opening a path adds no name. -/
theorem names_opened (base : String) : names (opened base) = names base := by
  unfold opened
  split
  · rfl
  · exact names_append_slash base

/-- What is joined to nothing is what it is; otherwise its names come behind those in front. -/
theorem names_opened_append (base sub : String) :
    names (opened base ++ sub) =
      if base = "" then names sub else names base ++ proper (Text.fields '/' sub.toList) := by
  split
  · rename_i h
    rw [h, opened, if_pos (by decide), String.empty_append]
  · rename_i h
    obtain ⟨start, hs⟩ := opened_eq_append h
    have hstart : names start = names base := by rw [← names_opened base, hs, names_append_slash]
    rw [hs, names_append, hstart]

/-- The names in a path tell which of its pieces say something. -/
theorem proper_fields (path : String) :
    proper (Text.fields '/' path.toList) = (names path).filter (· ≠ ['.']) := by
  rw [names]
  cases Text.fields '/' path.toList with
  | nil => rfl
  | cons first pieces =>
    have hfirst : ([first].filter (· ≠ [])).filter (· ≠ ['.']) = proper [first] := by
      by_cases hf : first = [] <;> by_cases hd : first = ['.'] <;> simp [proper, hf, hd]
    have hpieces : (proper pieces).filter (· ≠ ['.']) = proper pieces := by
      refine List.filter_eq_self.mpr fun piece hm => ?_
      have hproper := (List.mem_filter.mp hm).2
      simp_all
    rw [List.filter_append, hfirst, hpieces]
    exact List.filter_append [first] pieces

/-- Joining does not tell apart what has the same components. -/
theorem names_join_congr {sub' : String} (h : components sub = components sub') (base : String) :
    names (join base sub) = names (join base sub') := by
  obtain ⟨habsolute, hnames⟩ := Prod.mk.inj h
  cases hs : isAbsolute sub with
  | true =>
    have hs' : isAbsolute sub' = true := habsolute.symm.trans hs
    rw [join_of_isAbsolute hs, join_of_isAbsolute hs', hnames]
  | false =>
    have hs' : isAbsolute sub' = false := habsolute.symm.trans hs
    rw [join_eq hs, join_eq hs', names_opened_append, names_opened_append, proper_fields, proper_fields,
      hnames]

/-! ## A file in a directory -/

/-- A text without slashes does not start at the root. -/
theorem isAbsolute_of_not_mem (h : '/' ∉ name.toList) : isAbsolute name = false := by
  rw [← Bool.not_eq_true]
  intro ha
  exact h (List.mem_of_head? (beq_iff_eq.mp ha))

/-- A text without slashes needs one before anything is joined to it, unless it is empty. -/
theorem isOpen_of_not_mem (h : name ≠ "") (hn : '/' ∉ name.toList) : isOpen name = false := by
  have hlast : name.toList.getLast? ≠ some '/' := fun e => hn (List.mem_of_getLast? e)
  simp [isOpen, h, hlast]

/-- An empty directory leaves no trace. -/
theorem fields_opened_append (hs : '/' ∉ sub.toList) (hn : '/' ∉ name.toList) :
    Text.fields '/' (opened sub ++ name).toList = [sub.toList].filter (· ≠ []) ++ [name.toList] := by
  by_cases h : sub = ""
  · rw [h, show opened "" = "" by decide, String.empty_append, Text.fields_of_not_mem hn]
    rfl
  · have hlist : sub.toList ≠ [] := fun e => h (String.toList_injective e)
    have htext : (opened sub ++ name).toList = sub.toList ++ '/' :: name.toList := by
      simp [opened, isOpen_of_not_mem h hs]
    rw [htext, Text.fields_append, Text.fields_of_not_mem hs, Text.fields_of_not_mem hn]
    simp [hlist]

/-- Whether a text is the name of one component. -/
structure IsName (name : String) : Prop where
  noSlash : '/' ∉ name.toList
  nonempty : name.toList ≠ []
  noDot : name.toList ≠ ['.']

namespace IsName

theorem isAbsolute (h : IsName name) : isAbsolute name = false := isAbsolute_of_not_mem h.noSlash

/-- A path that ends in a name needs a slash. -/
theorem isOpen_append (h : IsName name) (base : String) : isOpen (base ++ name) = false := by
  have hne : name ≠ "" := fun e => h.nonempty (by rw [e]; rfl)
  rw [Path.isOpen_append hne, isOpen_of_not_mem hne h.noSlash]

end IsName

/-- The name of what is joined to a path comes behind those of the path. -/
theorem IsName.names_opened_append (h : IsName name) (base : String) :
    names (opened base ++ name) = names base ++ [name.toList] := by
  have hfields : Text.fields '/' name.toList = [name.toList] := Text.fields_of_not_mem h.noSlash
  rw [Path.names_opened_append, hfields]
  split
  · rename_i hb
    rw [hb, names, hfields]
    simp [proper, h.nonempty, names, Text.fields]
  · simp [proper, h.nonempty, h.noDot]

/-- Nothing but the empty piece leaves no trace. -/
theorem filter_singleton_injective {piece other : List Char}
    (h : [piece].filter (· ≠ []) = [other].filter (· ≠ [])) : piece = other := by
  by_cases hp : piece = [] <;> by_cases ho : other = [] <;> simp_all

/-- Only the empty piece and the dot say nothing. -/
theorem proper_singleton (piece : List Char) :
    proper [piece] = if piece ∈ [[], ['.']] then [] else [piece] := by
  by_cases hn : piece = [] <;> by_cases hd : piece = ['.'] <;> simp [proper, hn, hd]

/-- Pieces that leave the same trace are one, or they leave none. -/
theorem proper_singleton_injective {piece other : List Char} (h : proper [piece] = proper [other]) :
    piece = other ∨ (piece ∈ [[], ['.']] ∧ other ∈ [[], ['.']]) := by
  rw [proper_singleton, proper_singleton] at h
  split at h
  · split at h
    · exact Or.inr ⟨‹_›, ‹_›⟩
    · cases h
  · split at h
    · cases h
    · exact Or.inl (List.singleton_inj.mp h)

/-- The components of a file's path tell its directory, unless that is the one it is in or none. -/
theorem names_join_join (hs : '/' ∉ sub.toList) (hn : IsName name) (base : String) :
    names (join (join base sub) name) =
      (if base = "" then [sub.toList].filter (· ≠ []) else names base ++ proper [sub.toList]) ++
        [name.toList] := by
  rw [join_join (isAbsolute_of_not_mem hs) hn.isAbsolute, names_opened_append]
  have hfields := fields_opened_append hs hn.noSlash
  split
  · rw [names, hfields]
    by_cases h : sub.toList = [] <;> simp [h, proper, hn.nonempty, hn.noDot]
  · rw [hfields]
    by_cases h : sub.toList = [] <;> by_cases hd : sub.toList = ['.'] <;>
      simp [h, hd, proper, hn.nonempty, hn.noDot]

/-- A file is in one place in all directories that say nothing. -/
theorem components_join_join {sub' : String} (hs : '/' ∉ sub.toList) (hs' : '/' ∉ sub'.toList)
    (hn : IsName name) (hb : base ≠ "") (h : proper [sub.toList] = proper [sub'.toList]) :
    components (join (join base sub) name) = components (join (join base sub') name) := by
  have habsolute : ∀ dir, '/' ∉ dir.toList → isAbsolute (join (join base dir) name) = isAbsolute base := by
    intro dir hd
    have hne : opened base ≠ "" := by
      obtain ⟨start, e⟩ := opened_eq_append hb
      rw [e]
      exact fun h => absurd (String.append_eq_empty_iff.mp h).2 (by decide)
    rw [join_join (isAbsolute_of_not_mem hd) hn.isAbsolute, isAbsolute_append_of_ne hne,
      isAbsolute_opened hb]
  rw [components, components, habsolute sub hs, habsolute sub' hs', names_join_join hs hn,
    names_join_join hs' hn, if_neg hb, if_neg hb, h]

/-- Paths below two directories next to each other are different. -/
theorem components_ne_of_below {base' x y : String} (hb : names base = names base') (hn : IsName name)
    (ho : IsName other) (hne : name ≠ other) (hx : Below (opened base ++ name) x)
    (hy : Below (opened base' ++ other) y) : components x ≠ components y := by
  obtain ⟨rest, rfl⟩ := hx
  obtain ⟨rest', rfl⟩ := hy
  intro h
  have hnames := congrArg Prod.snd h
  simp only [components, names_append, hn.names_opened_append, ho.names_opened_append, hb,
    List.append_assoc, List.append_cancel_left_eq, List.cons_append, List.nil_append,
    List.cons.injEq] at hnames
  exact hne (String.toList_injective hnames.1)

end Path

end BuildGraph
