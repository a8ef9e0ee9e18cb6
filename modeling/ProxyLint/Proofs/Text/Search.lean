import ProxyLint.Text.Digit
import ProxyLint.Text.Search

/-!
# Searching and letter case

What the searches in a text find, stated without their recursion, and what
small letters have in common with the letters they come from.
-/

namespace ProxyLint

namespace Text

theorem occurs_iff_infix {pattern text : List Char} :
    occurs pattern text = true ↔ pattern <:+: text := by
  induction text with
  | nil => simp [occurs]
  | cons character rest ih =>
      rw [occurs, Bool.or_eq_true, ih, List.isPrefixOf_iff_prefix,
        List.infix_cons_iff]

/-- A text without separators is a single piece. -/
theorem pieces_of_not_mem {separator : Char} {text : List Char}
    (absent : separator ∉ text) : pieces separator text = [text] := by
  induction text with
  | nil => rfl
  | cons character rest ih =>
      have other : character ≠ separator := by
        rintro rfl
        exact absent List.mem_cons_self
      rw [pieces, if_neg other,
        ih fun member => absent (List.mem_cons_of_mem _ member)]

theorem pieces_append {separator : Char} {piece : List Char}
    (absent : separator ∉ piece) (rest : List Char) :
    pieces separator (piece ++ separator :: rest) =
      piece :: pieces separator rest := by
  induction piece with
  | nil => simp [pieces]
  | cons character later ih =>
      have other : character ≠ separator := by
        rintro rfl
        exact absent List.mem_cons_self
      rw [List.cons_append, pieces, if_neg other,
        ih fun member => absent (List.mem_cons_of_mem _ member)]

theorem not_mem_of_mem_pieces {separator : Char} {text piece : List Char}
    (present : piece ∈ pieces separator text) : separator ∉ piece := by
  induction text generalizing piece with
  | nil =>
      rw [pieces, List.mem_singleton] at present
      simp [present]
  | cons character rest ih =>
      rw [pieces] at present
      by_cases separates : character = separator
      · rw [if_pos separates] at present
        rcases List.mem_cons.1 present with rfl | later
        · simp
        · exact ih later
      · rw [if_neg separates] at present
        cases cut : pieces separator rest with
        | nil =>
            rw [cut, List.mem_singleton] at present
            simpa [present] using Ne.symm separates
        | cons first others =>
            rw [cut] at present ih
            rcases List.mem_cons.1 present with rfl | later
            · rw [List.mem_cons, not_or]
              exact ⟨Ne.symm separates, ih List.mem_cons_self⟩
            · exact ih (List.mem_cons_of_mem _ later)

theorem pieces_ne_nil (separator : Char) (text : List Char) :
    pieces separator text ≠ [] := by
  cases text with
  | nil => simp [pieces]
  | cons character rest =>
      rw [pieces]
      split
      · simp
      · split <;> simp

/-- The pieces with separators in between are the whole text. -/
theorem intercalate_pieces (separator : Char) (text : List Char) :
    [separator].intercalate (pieces separator text) = text := by
  induction text with
  | nil => rfl
  | cons character rest ih =>
      rw [pieces]
      by_cases separates : character = separator
      · rw [if_pos separates,
          List.intercalate_cons_of_ne_nil (pieces_ne_nil separator rest), ih,
          separates]
        rfl
      · rw [if_neg separates]
        cases cut : pieces separator rest with
        | nil => exact absurd cut (pieces_ne_nil separator rest)
        | cons piece others =>
            rw [cut] at ih
            exact List.intercalate_cons_cons_left.trans (congrArg _ ih)

/-- Pieces without separators are found again when they are joined. -/
theorem pieces_intercalate {separator : Char} {parts : List (List Char)}
    (nonempty : parts ≠ []) (absent : ∀ part ∈ parts, separator ∉ part) :
    pieces separator ([separator].intercalate parts) = parts := by
  induction parts with
  | nil => exact absurd rfl nonempty
  | cons part others ih =>
      have free := absent part List.mem_cons_self
      cases others with
      | nil =>
          rw [List.intercalate_singleton]
          exact pieces_of_not_mem free
      | cons next later =>
          have rest := ih (List.cons_ne_nil next later) fun other member =>
            absent other (List.mem_cons_of_mem _ member)
          rw [List.intercalate_cons_cons, List.append_assoc]
          exact (pieces_append free _).trans (congrArg (part :: ·) rest)

/-- A run of accepted characters ends where the first other one stands. -/
theorem run_of_append {accepts : Char → Bool} {run rest : List Char}
    (inside : ∀ character ∈ run, accepts character = true)
    (stops : ∀ character ∈ rest.head?, accepts character = false) :
    (run ++ rest).takeWhile accepts = run ∧
      (run ++ rest).dropWhile accepts = rest := by
  rw [List.takeWhile_append_of_pos inside, List.dropWhile_append_of_pos inside]
  cases rest with
  | nil => simp
  | cons character later => simp [stops character rfl]

/-- A word without separators at the end of a text stands behind each of its
separators. -/
theorem suffix_of_suffix_append_cons {word front rest : List Char}
    {separator : Char} (plain : separator ∉ word)
    (ends : word <:+ front ++ separator :: rest) : word <:+ rest := by
  have tail : separator :: rest <:+ front ++ separator :: rest :=
    List.suffix_append _ _
  rcases List.suffix_or_suffix_of_suffix ends tail with inside | beyond
  · rcases List.suffix_cons_iff.1 inside with same | inside
    · exact absurd (same ▸ List.mem_cons_self) plain
    · exact inside
  · exact absurd (beyond.subset List.mem_cons_self) plain

/-- A word before a separator ends what stands before the first separator, or
is found behind it. -/
theorem suffix_or_infix_of_infix {word front rest : List Char}
    {separator : Char} (plain : separator ∉ word) (absent : separator ∉ front)
    (found : word ++ [separator] <:+: front ++ separator :: rest) :
    word <:+ front ∨ word ++ [separator] <:+: rest := by
  obtain ⟨before, after, whole⟩ := found
  rw [← List.append_assoc, List.append_assoc, List.singleton_append,
    List.append_eq_append_iff] at whole
  rcases whole with ⟨gap, split, same⟩ | ⟨gap, split, same⟩
  · cases gap with
    | nil =>
        rw [List.append_nil] at split
        exact .inl ⟨before, split.symm⟩
    | cons first later =>
        obtain ⟨rfl, _⟩ := List.cons.inj same
        simp [split] at absent
  · cases gap with
    | nil =>
        rw [List.append_nil] at split
        exact .inl ⟨before, split⟩
    | cons first later =>
        obtain ⟨rfl, tail⟩ := List.cons.inj same
        obtain ⟨between, rfl⟩ :=
          suffix_of_suffix_append_cons plain ⟨before, split⟩
        exact .inr ⟨between, after, by simp [tail]⟩

/-- Only the capital letters differ from their small letters. -/
theorem toLower_cases (character : Char) :
    character.toLower = character ∨
      ∃ place < 26, character = Char.ofNat (65 + place) := by
  by_cases capital : 65 ≤ character.toNat ∧ character.toNat ≤ 90
  · refine .inr ⟨character.toNat - 65, by omega, ?_⟩
    rw [Nat.add_sub_cancel' capital.1, Char.ofNat_toNat]
  · left
    refine dif_neg ?_
    rintro ⟨lower, upper⟩
    exact capital ⟨UInt32.le_iff_toNat_le.1 lower,
      UInt32.le_iff_toNat_le.1 upper⟩

theorem toLower_toLower (character : Char) :
    character.toLower.toLower = character.toLower := by
  rcases toLower_cases character with same | ⟨place, bound, rfl⟩
  · rw [same, same]
  · revert place
    decide

theorem isAlpha_toLower (character : Char) :
    character.toLower.isAlpha = character.isAlpha := by
  rcases toLower_cases character with same | ⟨place, bound, rfl⟩
  · rw [same]
  · revert place
    decide

theorem isDecimalDigit_toLower (character : Char) :
    isDecimalDigit character.toLower = isDecimalDigit character := by
  rcases toLower_cases character with same | ⟨place, bound, rfl⟩
  · rw [same]
  · revert place
    decide +kernel

/-- No letter becomes a character that is not a letter. -/
theorem toLower_eq_iff {character other : Char}
    (symbol : other.isAlpha = false) :
    character.toLower = other ↔ character = other := by
  rcases toLower_cases character with same | ⟨place, bound, rfl⟩
  · rw [same]
  · have letter : ∀ place < 26, (Char.ofNat (65 + place)).isAlpha = true := by
      decide
    constructor
    · rintro rfl
      rw [isAlpha_toLower, letter place bound] at symbol
      cases symbol
    · rintro rfl
      rw [letter place bound] at symbol
      cases symbol

end Text

end ProxyLint
