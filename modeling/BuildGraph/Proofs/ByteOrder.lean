import Mathlib.Data.String.Basic
import BuildGraph.SortedMap

/-!
# The order of texts and of their bytes

Maps with text keys list their bindings by comparing characters. The encoding of characters in bytes
keeps that order, so every such listing is in byte order as well. Both statements hold for all texts;
nothing is assumed about the characters in them.
-/

namespace BuildGraph

/-- The bytes of a text in UTF-8. -/
def Text.bytes (s : String) : List UInt8 := s.toUTF8.data.toList

/-- Whether the bytes of one text come before those of another. -/
def Text.BytesBefore (a b : String) : Prop := Text.bytes a < Text.bytes b

instance (a b : String) : Decidable (Text.BytesBefore a b) :=
  inferInstanceAs (Decidable (Text.bytes a < Text.bytes b))

namespace Text

/-- Bytes are written character by character. -/
theorem bytes_eq_flatMap (s : String) : bytes s = s.toList.flatMap String.utf8EncodeChar := by
  have hs : s.toUTF8 = (s.toList.flatMap String.utf8EncodeChar).toByteArray := by
    conv_lhs => rw [← String.ofList_toList (s := s)]
    exact String.toByteArray_ofList
  rw [bytes, hs, List.data_toByteArray]

/-- A number is smaller if what its last six bits leave is, or else if those are. -/
theorem lt_sixBits {a b : Nat} (h : a < b) :
    a / 64 < b / 64 ∨ a / 64 = b / 64 ∧ a % 64 < b % 64 := by
  omega

/-- The bytes of a smaller character come first, whatever follows. -/
theorem utf8EncodeChar_append_lt {c d : Char} (h : c < d) (xs ys : List UInt8) :
    String.utf8EncodeChar c ++ xs < String.utf8EncodeChar d ++ ys := by
  have hv : c.val.toNat < d.val.toNat := h
  have hd : d.val.toNat < 1114112 := by
    rcases d.valid with hd | hd
    · exact Nat.lt_trans hd (by decide)
    · exact hd.2
  -- The first byte decides if the lengths differ, else the first place where the code points do.
  fun_cases String.utf8EncodeChar c <;> fun_cases String.utf8EncodeChar d <;>
    simp only [List.cons_append, List.nil_append, List.cons_lt_cons_iff, UInt8.lt_iff_toNat_lt,
      ← UInt8.toNat_inj, UInt8.toNat_ofNat']
  case case4.case4 v _ _ _ w _ _ _ =>
    have h₁ : v < w := hv
    have h₂ : w < 1114112 := hd
    rcases lt_sixBits h₁ with h₁ | ⟨h₁, h₀⟩
    · rcases lt_sixBits h₁ with h₁ | ⟨h₁, h₀⟩
      · rcases lt_sixBits h₁ with h₁ | ⟨h₁, h₀⟩ <;> omega
      · omega
    · omega
  all_goals omega

/-- Texts in order by their characters are in order by their bytes. -/
theorem flatMap_utf8EncodeChar_lt {cs ds : List Char} (h : cs < ds) :
    cs.flatMap String.utf8EncodeChar < ds.flatMap String.utf8EncodeChar := by
  induction h with
  | @nil d ds =>
    rw [List.flatMap_nil, List.flatMap_cons]
    cases hd : String.utf8EncodeChar d with
    | nil => exact absurd hd String.utf8EncodeChar_ne_nil
    | cons b bs => exact List.Lex.nil
  | @rel c cs d ds hcd =>
    rw [List.flatMap_cons, List.flatMap_cons]
    exact utf8EncodeChar_append_lt hcd _ _
  | @cons c cs ds _ ih =>
    rw [List.flatMap_cons, List.flatMap_cons]
    exact List.append_left_lt ih

/-- Texts are ordered as their bytes are. -/
theorem bytesBefore_iff_lt {a b : String} : BytesBefore a b ↔ a < b := by
  have mono : ∀ {a b : String}, a < b → BytesBefore a b := fun {a b} h => by
    rw [BytesBefore, bytes_eq_flatMap, bytes_eq_flatMap]
    exact flatMap_utf8EncodeChar_lt (String.lt_iff.mp h)
  refine ⟨fun h => ?_, mono⟩
  by_contra hn
  rcases lt_or_eq_of_le (not_lt.mp hn) with hlt | rfl
  · exact List.lt_asymm h (mono hlt)
  · exact List.lt_irrefl _ h

/-- Names are compared by their bytes. -/
theorem compare_eq_lt_iff {a b : String} : compare a b = .lt ↔ BytesBefore a b :=
  compareOfLessAndEq_eq_lt.trans bytesBefore_iff_lt.symm

theorem not_bytesBefore_self (a : String) : ¬ BytesBefore a a := List.lt_irrefl _

/-- What stands before a text in a list in byte order is what comes before it. -/
theorem mem_earlier_iff {a b : String} {earlier later : List String}
    (h : (earlier ++ b :: later).Pairwise BytesBefore) :
    a ∈ earlier ↔ a ∈ earlier ++ b :: later ∧ BytesBefore a b := by
  obtain ⟨_, hlater, hcross⟩ := List.pairwise_append.mp h
  constructor
  · intro ha
    exact ⟨List.mem_append_left _ ha, hcross a ha b (List.mem_cons_self ..)⟩
  · rintro ⟨ha, hab⟩
    rcases List.mem_append.mp ha with ha | ha
    · exact ha
    rcases List.mem_cons.mp ha with rfl | ha
    · exact absurd hab (not_bytesBefore_self a)
    · exact absurd hab (List.lt_asymm ((List.pairwise_cons.mp hlater).1 a ha))

end Text

/-- The keys of a map are listed in byte order. -/
theorem SortedMap.keys_bytesBefore {υ : Type} (m : SortedMap String υ) :
    m.keys.Pairwise Text.BytesBefore := by
  rw [SortedMap.keys, List.pairwise_map]
  exact m.increasing.imp Text.compare_eq_lt_iff.mp

end BuildGraph
