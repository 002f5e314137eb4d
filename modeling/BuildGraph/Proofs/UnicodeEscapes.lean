import BuildGraph.Properties
import Mathlib.Data.List.Forall2

/-!
# Unicode escapes in property files

A property file is refused for its unicode escapes only. It is read if and only if each `\u` in a raw key
or value, unless its backslash is escaped itself, is followed by four characters that are taken for the
code of a character, and such an escape stands for that character and nothing else. Four hexadecimal
digits are taken for a code, but so are a plus sign and three digits, which is more than the format allows.
-/

namespace BuildGraph.Properties

open Text

/-! ## Codes -/

/-- Whether a character is the hexadecimal digit of a value. -/
def IsDigit (c : Char) (n : Nat) : Prop :=
  "0123456789abcdef".toList[n]? = some c ∨ "0123456789ABCDEF".toList[n]? = some c

instance (c : Char) (n : Nat) : Decidable (IsDigit c n) := inferInstanceAs (Decidable (_ ∨ _))

/-- Whether a text is four hexadecimal digits that write the code of a character. -/
def WritesCode (digits : List Char) (x : Char) : Prop :=
  digits.length = 4 ∧ ∃ ns, List.Forall₂ IsDigit digits ns ∧ x.toNat = ns.foldl (16 * · + ·) 0

/-- Whether a text is taken for the code of a character: a plus sign may stand for a zero in front. -/
def TakenForCode (digits : List Char) (x : Char) : Prop :=
  WritesCode digits x ∨ ∃ rest, digits = '+' :: rest ∧ WritesCode ('0' :: rest) x

/-- No hexadecimal digit comes behind `f`. -/
theorem le_of_hexDigit? {c : Char} {n : Nat} (h : hexDigit? c = some n) : c ≤ 'f' := by
  unfold hexDigit? at h
  split at h
  · rename_i hc
    exact Char.le_trans hc.2 (by decide)
  · split at h
    · rename_i hc
      exact hc.2
    · split at h
      · rename_i hc
        exact Char.le_trans hc.2 (by decide)
      · cases h

/-- Hexadecimal digits are read by their values, in either case. -/
theorem hexDigit?_eq_some_iff {c : Char} {n : Nat} : hexDigit? c = some n ↔ IsDigit c n := by
  constructor
  · intro h
    have hall : ∀ k < 103, ∀ d ∈ hexDigit? (Char.ofNat k), IsDigit (Char.ofNat k) d := by decide
    have hc := hall c.toNat (Nat.lt_succ_of_le (le_of_hexDigit? h))
    rw [Char.ofNat_toNat] at hc
    exact hc n h
  · have hlower : ∀ k : Fin 16, hexDigit? "0123456789abcdef".toList[k] = some k.1 := by decide
    have hupper : ∀ k : Fin 16, hexDigit? "0123456789ABCDEF".toList[k] = some k.1 := by decide
    rintro (h | h)
    · obtain ⟨hn, rfl⟩ := List.getElem?_eq_some_iff.mp h
      exact hlower ⟨n, hn⟩
    · obtain ⟨hn, rfl⟩ := List.getElem?_eq_some_iff.mp h
      exact hupper ⟨n, hn⟩

/-- A number is read from digits alone, each one counting sixteen times the next. -/
theorem hexNumber?_eq_some_iff {acc n : Nat} {digits : List Char} :
    hexNumber? acc digits = some n ↔
      ∃ ns, List.Forall₂ IsDigit digits ns ∧ n = ns.foldl (16 * · + ·) acc := by
  induction digits generalizing acc with
  | nil => simp [hexNumber?, eq_comm]
  | cons c digits ih =>
    simp only [hexNumber?, Option.bind_eq_some_iff, hexDigit?_eq_some_iff, ih]
    constructor
    · rintro ⟨d, hd, ns, hns, rfl⟩
      exact ⟨d :: ns, .cons hd hns, rfl⟩
    · rintro ⟨ns, hns, rfl⟩
      cases hns with
      | cons hd hns => exact ⟨_, hd, _, hns, rfl⟩

/-- Four hexadecimal digits write a character if their number is its code. -/
theorem writesCode_iff {digits : List Char} {x : Char} :
    WritesCode digits x ↔ digits.length = 4 ∧ hexNumber? 0 digits = some x.toNat := by
  rw [WritesCode, hexNumber?_eq_some_iff]

/-- A number is the code of at most one character. -/
theorem charOfCode_eq_some_iff {n : Nat} {x : Char} :
    (if n.isValidChar then some (Char.ofNat n) else none) = some x ↔ n = x.toNat := by
  constructor
  · intro h
    split at h
    · rename_i hv
      rw [← Option.some.inj h, Char.ofNat, dif_pos hv]
      rfl
    · cases h
  · rintro rfl
    have hv : x.toNat.isValidChar := x.valid
    rw [if_pos hv, Char.ofNat_toNat]

/-- An escape gives a character exactly if it is taken for its code, be it four digits or a plus sign and
three. -/
theorem character?_eq_some_iff {a b c d x : Char} :
    character? a b c d = some x ↔ TakenForCode [a, b, c, d] x := by
  have hcode : ∀ digits, (hexNumber? 0 digits).bind
      (fun n => if n.isValidChar then some (Char.ofNat n) else none) = some x ↔
        hexNumber? 0 digits = some x.toNat := by
    intro digits
    simp only [Option.bind_eq_some_iff, charOfCode_eq_some_iff, exists_eq_right]
  have hplus : ∀ digits, hexNumber? 0 ('+' :: digits) = none := fun _ => rfl
  have hzero : ∀ digits, hexNumber? 0 ('0' :: digits) = hexNumber? 0 digits := fun _ => rfl
  rw [character?, TakenForCode, writesCode_iff]
  split
  · rename_i ha
    rw [hcode, ha, hplus]
    simp [writesCode_iff, hzero]
  · rename_i ha
    rw [hcode]
    simp [ha]

/-! ## Escapes in raw texts -/

variable {takes : List Char → Char → Prop} {xs raw : List Char} {c : Char}

/-- Whether a text has an escape `\u`, its backslash not escaped itself, that is followed by what is taken
for no character. -/
def Malformed (takes : List Char → Char → Prop) (raw : List Char) : Prop :=
  ∃ front rest, raw = front ++ '\\' :: 'u' :: rest ∧ trailingBackslashes front % 2 = 0 ∧
    ∀ x, ¬ takes (rest.take 4) x

/-- The empty text has no escape. -/
theorem not_malformed_nil : ¬ Malformed takes [] := by
  rintro ⟨front, rest, h, _⟩
  simp at h

/-- A lone backslash at the end is no escape. -/
theorem not_malformed_backslash : ¬ Malformed takes ['\\'] := by
  rintro ⟨front, rest, h, _⟩
  have hlength := congrArg List.length h
  simp at hlength
  omega

/-- An escape stays one behind an even number of backslashes. -/
theorem Malformed.append (hx : trailingBackslashes xs % 2 = 0) (h : Malformed takes raw) :
    Malformed takes (xs ++ raw) := by
  obtain ⟨front, rest, rfl, hf, hr⟩ := h
  refine ⟨xs ++ front, rest, (List.append_assoc ..).symm, ?_, hr⟩
  rw [trailingBackslashes_append_mod hx, hf]

/-- Anything but a backslash is passed over. -/
theorem malformed_cons_iff (hc : c ≠ '\\') : Malformed takes (c :: raw) ↔ Malformed takes raw := by
  have hx : trailingBackslashes [c] % 2 = 0 := by simp [trailingBackslashes, hc]
  refine ⟨?_, Malformed.append hx⟩
  rintro ⟨front, rest, h, hf, hr⟩
  cases front with
  | nil => exact absurd (List.cons.inj h).1 hc
  | cons d front =>
    obtain ⟨rfl, rfl⟩ := List.cons.inj h
    rw [← List.singleton_append, trailingBackslashes_append_mod hx] at hf
    exact ⟨front, rest, rfl, hf, hr⟩

/-- A backslash escapes what comes right after it, be that another backslash. -/
theorem malformed_escape_iff :
    Malformed takes ('\\' :: c :: raw) ↔
      (c = 'u' ∧ ∀ x, ¬ takes (raw.take 4) x) ∨ Malformed takes raw := by
  have hx : trailingBackslashes ['\\', c] % 2 = 0 := by
    by_cases hc : c = '\\' <;> simp [trailingBackslashes, hc]
  constructor
  · rintro ⟨front, rest, h, hf, hr⟩
    match front with
    | [] =>
      simp only [List.nil_append, List.cons.injEq, true_and] at h
      obtain ⟨rfl, rfl⟩ := h
      exact Or.inl ⟨rfl, hr⟩
    | [d] =>
      obtain ⟨rfl, _⟩ := List.cons.inj h
      exact absurd hf (by decide)
    | d :: e :: front =>
      simp only [List.cons_append, List.cons.injEq] at h
      obtain ⟨rfl, rfl, rfl⟩ := h
      rw [show '\\' :: c :: front = ['\\', c] ++ front from rfl,
        trailingBackslashes_append_mod hx] at hf
      exact Or.inr ⟨front, rest, rfl, hf, hr⟩
  · rintro (⟨rfl, hr⟩ | h)
    · exact ⟨[], raw, rfl, rfl, hr⟩
    · exact h.append hx

/-- No digit is a backslash, so that none can start an escape. -/
theorem IsDigit.ne_backslash {n : Nat} (h : IsDigit c n) : c ≠ '\\' := by
  rintro rfl
  rcases h with h | h
  · exact absurd (List.mem_of_getElem? h) (by decide)
  · exact absurd (List.mem_of_getElem? h) (by decide)

/-- What is taken for a code has four characters, with or without a sign. -/
theorem TakenForCode.length {digits : List Char} {x : Char} (h : TakenForCode digits x) :
    digits.length = 4 := by
  rcases h with ⟨hl, _⟩ | ⟨rest, rfl, hl, _⟩
  · exact hl
  · exact hl

/-- What is taken for a code has no backslash in it. -/
theorem TakenForCode.not_mem {digits : List Char} {x : Char} (h : TakenForCode digits x) :
    '\\' ∉ digits := by
  have hdigits : ∀ {digits ns}, List.Forall₂ IsDigit digits ns → '\\' ∉ digits := by
    intro digits ns h
    induction h with
    | nil => exact List.not_mem_nil
    | cons hd _ ih => exact List.not_mem_cons_of_ne_of_not_mem hd.ne_backslash.symm ih
  rcases h with ⟨_, ns, hns, _⟩ | ⟨rest, rfl, _, ns, hns, _⟩
  · exact hdigits hns
  · have hrest := hdigits hns
    simp_all

/-- Whether a text has an escape `\u`, its backslash not escaped itself, that a plus sign follows. -/
def HasPlus (raw : List Char) : Prop :=
  ∃ front rest, raw = front ++ '\\' :: 'u' :: '+' :: rest ∧ trailingBackslashes front % 2 = 0

/-- Where no plus sign is in the way, just what is no code is taken for none. -/
theorem malformed_iff_of_not_hasPlus (hp : ¬ HasPlus raw) :
    Malformed TakenForCode raw ↔ Malformed WritesCode raw := by
  constructor
  · rintro ⟨front, rest, rfl, hf, hr⟩
    exact ⟨front, rest, rfl, hf, fun x hx => hr x (Or.inl hx)⟩
  · rintro ⟨front, rest, rfl, hf, hr⟩
    refine ⟨front, rest, rfl, hf, fun x hx => ?_⟩
    obtain ⟨digits, hplus, _⟩ := hx.resolve_left (hr x)
    cases rest with
    | nil => cases hplus
    | cons c rest =>
      obtain rfl : c = '+' := (List.cons.inj hplus).1
      exact hp ⟨front, rest, rfl, hf⟩

/-- Reading escapes fails exactly if one of them is malformed. -/
theorem unescape_eq_error_iff :
    (∃ digits, unescape raw = .error digits) ↔ Malformed TakenForCode raw := by
  have hmap : ∀ {c : Char} {cs : List Char}, (∃ digits, (unescape cs).map (c :: ·) = .error digits) ↔
      ∃ digits, unescape cs = .error digits := by
    intro c cs
    cases unescape cs <;> simp [Except.map]
  fun_induction unescape raw with
  | case1 => simp [not_malformed_nil]
  | case2 => simp [not_malformed_backslash]
  | case3 a b c d cs x hx ih =>
    have htaken := character?_eq_some_iff.mp hx
    have hnot := htaken.not_mem
    simp only [List.mem_cons, not_or, List.not_mem_nil, not_false_iff, and_true] at hnot
    obtain ⟨ha, hb, hc, hd⟩ := hnot
    refine (hmap.trans ih).trans ?_
    rw [malformed_escape_iff, malformed_cons_iff (Ne.symm ha), malformed_cons_iff (Ne.symm hb),
      malformed_cons_iff (Ne.symm hc), malformed_cons_iff (Ne.symm hd)]
    refine ⟨Or.inr, fun h => h.resolve_left fun hnone => hnone.2 x htaken⟩
  | case4 a b c d cs hx =>
    refine ⟨fun _ => malformed_escape_iff.mpr (Or.inl ⟨rfl, fun x ht => ?_⟩), fun _ => ⟨_, rfl⟩⟩
    rw [character?_eq_some_iff.mpr ht] at hx
    cases hx
  | case5 cs hshort =>
    refine ⟨fun _ => malformed_escape_iff.mpr (Or.inl ⟨rfl, fun x ht => ?_⟩), fun _ => ⟨_, rfl⟩⟩
    have hlength := ht.length
    rcases cs with _ | ⟨a, _ | ⟨b, _ | ⟨c, _ | ⟨d, cs⟩⟩⟩⟩
    · cases hlength
    · cases hlength
    · cases hlength
    · cases hlength
    · exact hshort a b c d cs rfl
  | case6 c cs _ hu ih =>
    refine (hmap.trans ih).trans ?_
    rw [malformed_escape_iff]
    exact ⟨Or.inr, fun h => h.resolve_left fun hc => hu hc.1⟩
  | case7 c cs h₁ h₂ h₃ h₄ ih =>
    have hc : c ≠ '\\' := by
      intro hc
      cases cs with
      | nil => exact h₁ hc rfl
      | cons d ds => exact h₄ d ds hc rfl
    exact (hmap.trans ih).trans (malformed_cons_iff hc).symm

/-! ## What escapes stand for -/

/-- A piece of a raw text that stands for one character. -/
inductive Stands : List Char → Char → Prop where
  | plain {c : Char} (hc : c ≠ '\\') : Stands [c] c
  | escape {c : Char} (hc : c ≠ 'u') : Stands ['\\', c] (escaped c)
  | code {a b c d x : Char} (h : TakenForCode [a, b, c, d] x) : Stands ['\\', 'u', a, b, c, d] x

/-- The text that a raw text stands for, piece by piece. A lone backslash at the end stands for nothing. -/
inductive Reads : List Char → List Char → Prop where
  | nil : Reads [] []
  | backslash : Reads ['\\'] []
  | cons {piece raw text : List Char} {x : Char} (hp : Stands piece x) (hr : Reads raw text) :
    Reads (piece ++ raw) (x :: text)

variable {piece text front rest : List Char} {x : Char}

/-- A piece for one character ends in an even number of backslashes, so the next piece is read afresh. -/
theorem Stands.even (h : Stands piece x) : trailingBackslashes piece % 2 = 0 := by
  cases h with
  | plain hc => simp [trailingBackslashes, hc]
  | @escape c _ => by_cases hc : c = '\\' <;> simp [trailingBackslashes, hc]
  | @code a b c d _ h =>
    have hd : d ≠ '\\' := fun e => h.not_mem (by simp [e])
    simp [trailingBackslashes, hd]

/-- A piece in front is read as its character, whatever follows. -/
theorem Stands.unescape_append (h : Stands piece x) (cs : List Char) :
    unescape (piece ++ cs) = (unescape cs).map (x :: ·) := by
  cases h with
  | plain hc => exact unescape_plain hc cs
  | escape hc => exact unescape_escaped hc cs
  | code h =>
    change unescape ('\\' :: 'u' :: _ :: _ :: _ :: _ :: cs) = _
    rw [unescape, character?_eq_some_iff.mpr h]

/-- Reading escapes gives exactly the text that a raw text stands for. -/
theorem unescape_eq_ok_iff : unescape raw = .ok text ↔ Reads raw text := by
  have hmap : ∀ {piece cs : List Char} {x : Char}, Stands piece x →
      (∀ {text}, unescape cs = .ok text → Reads cs text) →
      ∀ {text}, (unescape cs).map (x :: ·) = .ok text → Reads (piece ++ cs) text := by
    intro piece cs x hp ih text h
    cases hcs : unescape cs with
    | error digits =>
      rw [hcs] at h
      cases h
    | ok tail =>
      rw [hcs] at h
      obtain rfl := Except.ok.inj h
      exact .cons hp (ih hcs)
  constructor
  · intro h
    fun_induction unescape raw generalizing text with
    | case1 =>
      obtain rfl := Except.ok.inj h
      exact .nil
    | case2 =>
      obtain rfl := Except.ok.inj h
      exact .backslash
    | case3 a b c d cs x hx ih => exact hmap (.code (character?_eq_some_iff.mp hx)) ih h
    | case4 => cases h
    | case5 => cases h
    | case6 c cs _ hu ih => exact hmap (.escape hu) ih h
    | case7 c cs h₁ _ _ h₄ ih =>
      have hc : c ≠ '\\' := by
        intro hc
        cases cs with
        | nil => exact h₁ hc rfl
        | cons d ds => exact h₄ d ds hc rfl
      exact hmap (.plain hc) ih h
  · intro h
    induction h with
    | nil => rfl
    | backslash => rfl
    | cons hp _ ih =>
      rw [hp.unescape_append, ih]
      rfl

/-- Behind an even number of backslashes, a text may be cut if its first part can be read. -/
theorem Reads.unescape_append (h : Reads front text) (hf : trailingBackslashes front % 2 = 0)
    (rest : List Char) : unescape (front ++ rest) = (unescape rest).map (text ++ ·) := by
  induction h with
  | nil =>
    rw [List.nil_append]
    cases unescape rest <;> rfl
  | backslash => cases hf
  | cons hp _ ih =>
    rw [trailingBackslashes_append_mod hp.even] at hf
    rw [List.append_assoc, hp.unescape_append, ih hf]
    cases unescape rest <;> rfl

/-- A malformed escape stays malformed if a backslash follows, for that is taken for no digit. -/
theorem Malformed.append_backslash (h : Malformed TakenForCode raw) (rest : List Char) :
    Malformed TakenForCode (raw ++ '\\' :: rest) := by
  obtain ⟨front, post, rfl, hf, hr⟩ := h
  refine ⟨front, post ++ '\\' :: rest, by simp, hf, fun x hx => ?_⟩
  by_cases hlength : 4 ≤ post.length
  · rw [List.take_append_of_le_length hlength] at hx
    exact hr x hx
  · refine hx.not_mem ?_
    rw [List.take_append, List.mem_append]
    obtain ⟨k, hk⟩ : ∃ k, 4 - post.length = k + 1 := ⟨3 - post.length, by omega⟩
    rw [hk, List.take_succ_cons]
    exact Or.inr (List.mem_cons_self ..)

/-- Whether each escape `\u` of a raw text, its backslash not escaped itself, puts the character of its code
between what is before and behind it, which are read by themselves. -/
def ShowsCodes (raw text : List Char) : Prop :=
  ∀ front rest, raw = front ++ '\\' :: 'u' :: rest → trailingBackslashes front % 2 = 0 →
    ∃ before x after, Reads front before ∧ TakenForCode (rest.take 4) x ∧ Reads (rest.drop 4) after ∧
      text = before ++ x :: after

/-- In a text that can be read each escape shows the character of its code in its place. -/
theorem Reads.showsCodes (h : Reads raw text) : ShowsCodes raw text := by
  rintro front rest rfl hf
  have hok := unescape_eq_ok_iff.mpr h
  have hnot : ¬ Malformed TakenForCode (front ++ '\\' :: 'u' :: rest) := by
    intro hm
    obtain ⟨digits, he⟩ := unescape_eq_error_iff.mpr hm
    cases hok.symm.trans he
  obtain ⟨x, hx⟩ : ∃ x, TakenForCode (rest.take 4) x := by
    by_contra hnone
    exact hnot ⟨front, rest, rfl, hf, not_exists.mp hnone⟩
  obtain ⟨before, hbefore⟩ : ∃ before, unescape front = .ok before := by
    cases hfront : unescape front with
    | error digits =>
      exact absurd ((unescape_eq_error_iff.mp ⟨digits, hfront⟩).append_backslash _) hnot
    | ok before => exact ⟨before, rfl⟩
  have hreads := unescape_eq_ok_iff.mp hbefore
  rw [hreads.unescape_append hf] at hok
  rcases rest with _ | ⟨a, _ | ⟨b, _ | ⟨c, _ | ⟨d, tail⟩⟩⟩⟩
  · cases hx.length
  · cases hx.length
  · cases hx.length
  · cases hx.length
  · have htail := (Stands.code hx).unescape_append tail
    simp only [List.cons_append, List.nil_append] at htail
    rw [htail] at hok
    cases hafter : unescape tail with
    | error digits =>
      rw [hafter] at hok
      cases hok
    | ok after =>
      rw [hafter] at hok
      exact ⟨before, x, after, hreads, hx, unescape_eq_ok_iff.mp hafter, (Except.ok.inj hok).symm⟩

/-! ## Files -/

namespace LogicalLine

/-- The key of a logical line as it is written. -/
def rawKey (l : LogicalLine) : List Char := (cutKey l.text).1

/-- The value of a logical line as it is written. -/
def rawValue (l : LogicalLine) : List Char := skipSign (cutKey l.text).2

/-- Whether a pair is what the key and the value of a logical line stand for. -/
structure Gives (l : LogicalLine) (p : String × String) : Prop where
  key : Reads l.rawKey p.1.toList
  value : Reads l.rawValue p.2.toList

end LogicalLine

variable {l : LogicalLine} {ls : List LogicalLine}

/-- The key is read before the value. -/
theorem pair_eq (l : LogicalLine) :
    pair l = ((unescape l.rawKey).bind fun key =>
      (unescape l.rawValue).map fun value => (String.ofList key, String.ofList value)).mapError
        fun digits => ⟨l.line, .ofList digits⟩ := by
  cases hk : unescape l.rawKey with
  | error digits =>
    simp only [LogicalLine.rawKey] at hk
    simp [pair, hk, Except.bind, Except.mapError]
  | ok key =>
    simp only [LogicalLine.rawKey] at hk
    cases hv : unescape l.rawValue <;>
      simp only [LogicalLine.rawValue] at hv <;>
      simp [pair, hk, hv, Except.bind, Except.map, Except.mapError]

/-- A line gives a pair exactly if key and value stand for its two texts. -/
theorem pair_eq_ok_iff {p : String × String} : pair l = .ok p ↔ l.Gives p := by
  have hp : l.Gives p ↔ unescape l.rawKey = .ok p.1.toList ∧ unescape l.rawValue = .ok p.2.toList := by
    rw [unescape_eq_ok_iff, unescape_eq_ok_iff]
    exact ⟨fun h => ⟨h.key, h.value⟩, fun h => ⟨h.1, h.2⟩⟩
  rw [hp, pair_eq]
  cases unescape l.rawKey with
  | error digits => simp [Except.bind, Except.mapError]
  | ok key =>
    cases unescape l.rawValue with
    | error digits => simp [Except.bind, Except.map, Except.mapError]
    | ok value =>
      have htext : ∀ (cs : List Char) (s : String), String.ofList cs = s ↔ cs = s.toList := fun cs s =>
        ⟨fun h => h ▸ String.toList_ofList.symm, fun h => h ▸ String.ofList_toList⟩
      simp only [Except.bind, Except.map, Except.mapError, Except.ok.injEq, Prod.ext_iff, htext]

/-- A pair is lost to an escape in the key or in the value. -/
theorem pair_eq_error_iff :
    (∃ fault, pair l = .error fault) ↔
      Malformed TakenForCode l.rawKey ∨ Malformed TakenForCode l.rawValue := by
  rw [← unescape_eq_error_iff, ← unescape_eq_error_iff, pair_eq]
  cases unescape l.rawKey <;> cases unescape l.rawValue <;>
    simp [Except.bind, Except.map, Except.mapError]

/-- Lines give pairs if the first one does, and the others do. -/
theorem pairs_cons_eq_ok_iff {ps : List (String × String)} :
    pairs (l :: ls) = .ok ps ↔ ∃ p qs, pair l = .ok p ∧ pairs ls = .ok qs ∧ ps = p :: qs := by
  rw [pairs]
  cases pair l with
  | error fault => simp
  | ok p => cases pairs ls <;> simp [Except.map, eq_comm]

/-- Lines give one pair each, in order. -/
theorem pairs_eq_ok_iff {ps : List (String × String)} :
    pairs ls = .ok ps ↔ List.Forall₂ LogicalLine.Gives ls ps := by
  induction ls generalizing ps with
  | nil => simp [pairs, eq_comm]
  | cons l ls ih =>
    rw [pairs_cons_eq_ok_iff, List.forall₂_cons_left_iff]
    simp only [pair_eq_ok_iff, ih, ← and_assoc]

/-- Lines are refused exactly if the key or the value of one of them has a malformed escape. -/
theorem pairs_eq_error_iff :
    (∃ fault, pairs ls = .error fault) ↔
      ∃ l ∈ ls, Malformed TakenForCode l.rawKey ∨ Malformed TakenForCode l.rawValue := by
  induction ls with
  | nil => simp [pairs]
  | cons l ls ih =>
    rw [List.exists_mem_cons_iff, ← pair_eq_error_iff, ← ih, pairs]
    cases pair l with
    | error fault => simp
    | ok p => cases pairs ls <;> simp [Except.map]

/-- The logical lines of a file. -/
def contentLines (content : String) : List LogicalLine := logicalLines 1 none (lines content.toList)

/-- A file is refused for a malformed escape in one of its logical lines and for nothing else. -/
theorem parse_eq_error_iff {content : String} :
    (∃ fault, parse content = .error fault) ↔
      ∃ l ∈ contentLines content,
        Malformed TakenForCode l.rawKey ∨ Malformed TakenForCode l.rawValue := by
  rw [← pairs_eq_error_iff, parse, ← contentLines]
  cases pairs (contentLines content) <;> simp [Except.map]

/-- A file is read as the map of its pairs, of which the last one of a key counts. -/
theorem parse_eq_ok_iff {content : String} {m : SortedMap String String} :
    parse content = .ok m ↔
      ∃ ps, List.Forall₂ LogicalLine.Gives (contentLines content) ps ∧ m = .ofList ps := by
  simp only [← pairs_eq_ok_iff]
  rw [parse, ← contentLines]
  cases pairs (contentLines content) <;> simp [Except.map, eq_comm]

/-- A file is refused exactly if the raw key or the raw value of a logical line has an escape `\u`, its
backslash not escaped itself, that is followed by what is taken for no code. If no plus sign follows such
an escape, these are exactly the escapes without four hexadecimal digits of a code. Every other file is
read as the pairs that its logical lines stand for, and each such escape in them shows the character of its
code. -/
theorem parse_escapes_exact (content : String) :
    ((∃ fault, parse content = .error fault) ↔
      ∃ l ∈ contentLines content,
        Malformed TakenForCode l.rawKey ∨ Malformed TakenForCode l.rawValue) ∧
    ((∀ l ∈ contentLines content, ¬ HasPlus l.rawKey ∧ ¬ HasPlus l.rawValue) →
      ((∃ fault, parse content = .error fault) ↔
        ∃ l ∈ contentLines content, Malformed WritesCode l.rawKey ∨ Malformed WritesCode l.rawValue)) ∧
    (∀ m, parse content = .ok m ↔
      ∃ ps, List.Forall₂ LogicalLine.Gives (contentLines content) ps ∧ m = .ofList ps) ∧
    ∀ l ∈ contentLines content, ∀ p, l.Gives p →
      ShowsCodes l.rawKey p.1.toList ∧ ShowsCodes l.rawValue p.2.toList := by
  refine ⟨parse_eq_error_iff, fun hplus => ?_, fun _ => parse_eq_ok_iff,
    fun _ _ _ h => ⟨h.key.showsCodes, h.value.showsCodes⟩⟩
  have hline : ∀ l ∈ contentLines content,
      (Malformed TakenForCode l.rawKey ∨ Malformed TakenForCode l.rawValue ↔
        Malformed WritesCode l.rawKey ∨ Malformed WritesCode l.rawValue) := fun l hl =>
    or_congr (malformed_iff_of_not_hasPlus (hplus l hl).1) (malformed_iff_of_not_hasPlus (hplus l hl).2)
  rw [parse_eq_error_iff]
  exact exists_congr fun l => and_congr_right (hline l)

/-- A plus sign and three digits are no four hexadecimal digits, and yet they are read. -/
theorem plus_sign_read :
    parse "k=\\u+041\n" = .ok (.ofList [("k", "A")]) ∧
      ∃ l ∈ contentLines "k=\\u+041\n", Malformed WritesCode l.rawValue := by
  refine ⟨by decide, ⟨1, "k=\\u+041".toList⟩, by decide, [], "+041".toList, by decide, rfl, ?_⟩
  rintro x ⟨_, ns, hns, _⟩
  have hdigits : List.Forall₂ IsDigit ('+' :: "041".toList) ns := hns
  cases hdigits with
  | cons hplus _ =>
    rcases hplus with h | h
    · exact absurd (List.mem_of_getElem? h) (by decide)
    · exact absurd (List.mem_of_getElem? h) (by decide)

end BuildGraph.Properties
