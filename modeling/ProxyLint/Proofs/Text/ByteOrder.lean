import Mathlib.Data.String.Basic
import Mathlib.Tactic.SplitIfs

/-!
# Order by bytes

Texts are compared character by character.  The UTF-8 bytes of texts are in the
same order, because a greater character has the greater byte at the first place
where its bytes differ from those of another one.
-/

namespace ProxyLint

namespace Text

/-- The UTF-8 bytes of a text. -/
def utf8 (text : String) : List UInt8 :=
  text.toUTF8.data.toList

theorem utf8_eq (text : String) :
    utf8 text = text.toList.flatMap String.utf8EncodeChar := by
  conv => lhs; rw [← String.ofList_toList (s := text)]
  rw [utf8, String.toUTF8, String.toByteArray_ofList, List.utf8Encode,
    List.data_toByteArray]

/-- Of two numbers the greater one is greater in the first place, with base
64, in which they differ. -/
theorem differ_in_place {number other : Nat} (below : number < other)
    (bound : other < 1114112) :
    number / 262144 % 8 < other / 262144 % 8 ∨
    (number / 262144 = other / 262144 ∧
      number / 4096 % 64 < other / 4096 % 64) ∨
    (number / 4096 = other / 4096 ∧ number / 64 % 64 < other / 64 % 64) ∨
    (number / 64 = other / 64 ∧ number % 64 < other % 64) := by
  have place {number other : Nat} (below : number < other) :
      number / 64 < other / 64 ∨
        number / 64 = other / 64 ∧ number % 64 < other % 64 := by
    omega
  have thousands (number : Nat) : number / 64 / 64 = number / 4096 := by omega
  have millions (number : Nat) : number / 4096 / 64 = number / 262144 := by
    omega
  rcases place below with below | last
  · rcases place below with below | third
    · rw [thousands, thousands] at below
      rcases place below with below | second
      · rw [millions, millions] at below
        have most : other / 262144 < 8 := by omega
        rw [Nat.mod_eq_of_lt most, Nat.mod_eq_of_lt (below.trans most)]
        exact .inl below
      · rw [millions, millions] at second
        exact .inr (.inl second)
    · rw [thousands, thousands] at third
      exact .inr (.inr (.inl third))
  · exact .inr (.inr (.inr last))

theorem utf8EncodeChar_append_lt {character other : Char}
    (below : character < other) (rest otherRest : List UInt8) :
    String.utf8EncodeChar character ++ rest <
      String.utf8EncodeChar other ++ otherRest := by
  have numbers : character.val.toNat < other.val.toNat := below
  have bound : other.val.toNat < 1114112 := by
    rcases other.valid with low | high
    · exact Nat.lt_trans low (by decide)
    · exact high.2
  have lead2 (number : Nat) :
      (number % 32 + 192) % 256 = number % 32 + 192 := by omega
  have lead3 (number : Nat) :
      (number % 16 + 224) % 256 = number % 16 + 224 := by omega
  have lead4 (number : Nat) : (number % 8 + 240) % 256 = number % 8 + 240 := by
    omega
  have further (number : Nat) :
      (number % 64 + 128) % 256 = number % 64 + 128 := by omega
  have places := differ_in_place numbers bound
  unfold String.utf8EncodeChar
  simp only
  split_ifs <;>
    simp only [List.cons_append, List.nil_append, List.cons_lt_cons_iff,
      UInt8.lt_iff_toNat_lt, ← UInt8.toNat_inj, UInt8.toNat_ofNat',
      Nat.reducePow, further, lead2, lead3, lead4] <;>
    omega

theorem flatMap_utf8EncodeChar_lt {characters others : List Char}
    (below : characters < others) :
    characters.flatMap String.utf8EncodeChar <
      others.flatMap String.utf8EncodeChar := by
  induction below with
  | @nil other others =>
      have present : String.utf8EncodeChar other ≠ [] :=
        List.ne_nil_of_length_pos (by
          rw [String.length_utf8EncodeChar]
          exact other.utf8Size_pos)
      obtain ⟨first, rest, bytes⟩ := List.exists_cons_of_ne_nil present
      rw [List.flatMap_cons, bytes]
      exact .nil
  | rel below => exact utf8EncodeChar_append_lt below _ _
  | cons _ ih => exact List.append_left_lt ih

/-- A smaller text has smaller bytes. -/
theorem utf8_lt_utf8 {text other : String} (below : text < other) :
    utf8 text < utf8 other := by
  rw [utf8_eq, utf8_eq]
  exact flatMap_utf8EncodeChar_lt below

end Text

end ProxyLint
