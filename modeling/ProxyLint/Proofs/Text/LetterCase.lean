import ProxyLint.Proofs.Text.Search

/-!
# Words with the same letters

Words may differ in nothing but the case of ASCII letters.  Tests of characters
that take no notice of case cannot tell such words apart.
-/

namespace ProxyLint

namespace Text

theorem isDigit_toLower (character : Char) :
    character.toLower.isDigit = character.isDigit := by
  rcases toLower_cases character with same | ⟨place, bound, rfl⟩
  · rw [same]
  · revert place
    decide

/-- Two words with the same letters, in whatever case. -/
def SameLetters (word other : List Char) : Prop :=
  word.map Char.toLower = other.map Char.toLower

instance (word other : List Char) : Decidable (SameLetters word other) :=
  inferInstanceAs (Decidable (_ = _))

theorem lowerAscii_eq_iff {text other : String} :
    lowerAscii text = lowerAscii other ↔
      SameLetters text.toList other.toList := by
  rw [lowerAscii, lowerAscii, ← String.toList_inj, String.toList_ofList,
    String.toList_ofList, SameLetters]

/-- A test that takes no notice of case has the same outcomes on words with the
same letters. -/
theorem SameLetters.all_eq {word other : List Char}
    (same : SameLetters word other) {test : Char → Bool}
    (blind : ∀ character, test character.toLower = test character) :
    word.all test = other.all test := by
  have lowered (word : List Char) :
      (word.map Char.toLower).all test = word.all test := by
    rw [List.all_map]
    exact congrArg word.all (funext blind)
  rw [← lowered word, same, lowered]

theorem SameLetters.head?_any_eq {word other : List Char}
    (same : SameLetters word other) {test : Char → Bool}
    (blind : ∀ character, test character.toLower = test character) :
    word.head?.any test = other.head?.any test := by
  have lowered (word : List Char) :
      (word.map Char.toLower).head?.any test = word.head?.any test := by
    cases word with
    | nil => rfl
    | cons first rest => exact blind first
  rw [← lowered word, same, lowered]

theorem SameLetters.isEmpty_eq {word other : List Char}
    (same : SameLetters word other) : word.isEmpty = other.isEmpty := by
  have length := congrArg List.length same
  rw [List.length_map, List.length_map] at length
  rw [Bool.eq_iff_iff, List.isEmpty_iff_length_eq_zero,
    List.isEmpty_iff_length_eq_zero, length]

end Text

end ProxyLint
