import ProxyLint.Text.Search
import Mathlib.Data.List.TakeWhile

/-!
# Patterns with preferences

A pattern may match the beginning of a text in several ways.  They are tried in
order: a preferred choice before the other one, and a long run before its
shorter beginnings.  The first way is the one that counts, and it sets parts of
the text apart in groups.
-/

namespace ProxyLint

/-- The characters in some ranges, or all others. -/
structure CharacterClass where
  ranges : List (Char × Char)
  isNegated : Bool
deriving DecidableEq, Repr

namespace CharacterClass

def accepts (characters : CharacterClass) (character : Char) : Bool :=
  (characters.ranges.any fun (least, greatest) =>
    least ≤ character && character ≤ greatest) != characters.isNegated

def only (character : Char) : CharacterClass :=
  ⟨[(character, character)], false⟩

end CharacterClass

/-- A pattern whose ways to match a text are ordered. -/
inductive TextPattern (Part : Type) where
  | empty
  | one (characters : CharacterClass)
  /-- One character or more, as many as possible. -/
  | run (characters : CharacterClass)
  | sequence (first next : TextPattern Part)
  | choice (preferred other : TextPattern Part)
  | group (part : Part) (inner : TextPattern Part)
deriving DecidableEq, Repr

/-- One way to match the beginning of a text. -/
structure TextMatch (Part : Type) where
  matched : List Char
  groups : List (Part × List Char)
  rest : List Char
deriving DecidableEq, Repr

variable {Part : Type}

namespace TextMatch

/-- A match and another one behind it. -/
def followedBy (found later : TextMatch Part) : TextMatch Part where
  matched := found.matched ++ later.matched
  groups := found.groups ++ later.groups
  rest := later.rest

def inGroup (part : Part) (found : TextMatch Part) : TextMatch Part :=
  { found with groups := found.groups ++ [(part, found.matched)] }

def part? [BEq Part] (found : TextMatch Part) (part : Part) : Option String :=
  (found.groups.lookup part).map String.ofList

end TextMatch

namespace TextPattern

/-- The runs at the start of a text with what follows them, longest first. -/
def runs (accepts : Char → Bool) : List Char → List (List Char × List Char)
  | [] => []
  | character :: rest =>
      if accepts character then
        (runs accepts rest).map (fun found =>
          (character :: found.1, found.2)) ++ [([character], rest)]
      else []

/-- The ways to match the beginning of a text, in the order in which they are
tried. -/
def ways : TextPattern Part → List Char → List (TextMatch Part)
  | empty, text => [⟨[], [], text⟩]
  | one _, [] => []
  | one characters, character :: rest =>
      if characters.accepts character then [⟨[character], [], rest⟩] else []
  | run characters, text =>
      (runs characters.accepts text).map fun found =>
        ⟨found.1, [], found.2⟩
  | sequence first next, text =>
      (first.ways text).flatMap fun found =>
        (next.ways found.rest).map found.followedBy
  | choice preferred other, text => preferred.ways text ++ other.ways text
  | group part inner, text => (inner.ways text).map (TextMatch.inGroup part)

/-- The way that counts. -/
def first? (pattern : TextPattern Part) (text : List Char) :
    Option (TextMatch Part) :=
  (pattern.ways text).head?

def optionally (inner : TextPattern Part) : TextPattern Part :=
  choice inner empty

def literally : List Char → TextPattern Part
  | [] => empty
  | character :: later => sequence (one (.only character)) (literally later)

end TextPattern

namespace CharacterClass

theorem between_same (character other : Char) :
    (decide (other ≤ character) && decide (character ≤ other)) =
      decide (character = other) := by
  rw [Bool.eq_iff_iff, Bool.and_eq_true]
  simp only [decide_eq_true_eq]
  constructor
  · rintro ⟨least, greatest⟩
    exact Char.le_antisymm greatest least
  · rintro rfl
    exact ⟨Char.le_refl _, Char.le_refl _⟩

theorem isDigit_eq_between (character : Char) :
    character.isDigit =
      (decide ('0' ≤ character) && decide (character ≤ '9')) :=
  rfl

@[simp]
theorem accepts_only (character other : Char) :
    (only character).accepts other = decide (other = character) := by
  simp [accepts, only, between_same]

end CharacterClass

namespace TextPattern

theorem dropWhile_of_takeWhile_eq_nil {accepts : Char → Bool}
    {text : List Char} (none : text.takeWhile accepts = []) :
    text.dropWhile accepts = text := by
  have whole := text.takeWhile_append_dropWhile (p := accepts)
  rwa [none, List.nil_append] at whole

/-- A run that is not empty starts with the text. -/
theorem exists_head?_of_takeWhile_ne_nil {accepts : Char → Bool}
    {text : List Char} (some_run : text.takeWhile accepts ≠ []) :
    ∃ character ∈ text.head?, accepts character = true := by
  cases text with
  | nil => exact absurd rfl some_run
  | cons character rest =>
      cases accepted : accepts character with
      | true => exact ⟨character, rfl, accepted⟩
      | false => simp [accepted] at some_run

/-- The longest run comes first, and each of the others is followed by a
character that continues it. -/
theorem runs_cases (accepts : Char → Bool) (text : List Char) :
    (text.takeWhile accepts = [] ∧ runs accepts text = []) ∨
      (text.takeWhile accepts ≠ [] ∧ ∃ shorter,
        runs accepts text =
          (text.takeWhile accepts, text.dropWhile accepts) :: shorter ∧
        ∀ found ∈ shorter, ∃ character ∈ found.2.head?,
          accepts character = true) := by
  induction text with
  | nil => exact .inl ⟨rfl, rfl⟩
  | cons character rest ih =>
      cases accepted : accepts character with
      | false => exact .inl (by simp [runs, accepted])
      | true =>
          refine .inr ⟨by simp [accepted], ?_⟩
          rw [runs, if_pos accepted, List.takeWhile_cons_of_pos accepted,
            List.dropWhile_cons_of_pos accepted]
          rcases ih with ⟨stops, listed⟩ | ⟨goes_on, shorter, listed, continued⟩
          · refine ⟨[], ?_, by simp⟩
            rw [listed, stops, dropWhile_of_takeWhile_eq_nil stops]
            rfl
          · refine ⟨_, by rw [listed, List.map_cons, List.cons_append], ?_⟩
            intro found member
            rcases List.mem_append.1 member with member | member
            · obtain ⟨inner, present, rfl⟩ := List.mem_map.1 member
              exact continued inner present
            · obtain rfl := List.mem_singleton.1 member
              exact exists_head?_of_takeWhile_ne_nil goes_on

theorem ways_run_eq_nil {characters : CharacterClass} {text : List Char}
    (stops : text.takeWhile characters.accepts = []) :
    (run characters : TextPattern Part).ways text = [] := by
  rcases runs_cases characters.accepts text with ⟨_, listed⟩ | ⟨goes_on, _⟩
  · simp [ways, listed]
  · exact absurd stops goes_on

/-- A run is tried at its full length first. -/
theorem exists_ways_run {characters : CharacterClass} {text : List Char}
    (goes_on : text.takeWhile characters.accepts ≠ []) :
    ∃ shorter, (run characters : TextPattern Part).ways text =
        ⟨text.takeWhile characters.accepts, [],
          text.dropWhile characters.accepts⟩ :: shorter ∧
      ∀ found ∈ shorter, ∃ character ∈ found.rest.head?,
        characters.accepts character = true := by
  rcases runs_cases characters.accepts text with ⟨stops, _⟩ |
    ⟨_, shorter, listed, continued⟩
  · exact absurd stops goes_on
  · refine ⟨shorter.map fun found => ⟨found.1, [], found.2⟩, ?_, ?_⟩
    · simp only [ways, listed, List.map_cons]
    · intro found member
      obtain ⟨inner, present, rfl⟩ := List.mem_map.1 member
      exact continued inner present

theorem exists_ways_optionally_run (characters : CharacterClass)
    (text : List Char) :
    ∃ shorter, (optionally (run characters) : TextPattern Part).ways text =
        ⟨text.takeWhile characters.accepts, [],
          text.dropWhile characters.accepts⟩ :: shorter ∧
      ∀ found ∈ shorter, ∃ character ∈ found.rest.head?,
        characters.accepts character = true := by
  rw [optionally, ways]
  by_cases stops : text.takeWhile characters.accepts = []
  · refine ⟨[], ?_, by simp⟩
    rw [ways_run_eq_nil stops, stops, dropWhile_of_takeWhile_eq_nil stops]
    rfl
  · obtain ⟨shorter, listed, continued⟩ := exists_ways_run stops
    refine ⟨_, by rw [listed, List.cons_append], ?_⟩
    intro found member
    rcases List.mem_append.1 member with member | member
    · exact continued found member
    · obtain rfl := List.mem_singleton.1 member
      exact exists_head?_of_takeWhile_ne_nil stops

/-- If the next pattern fails behind all ways but the first, that one is
taken. -/
theorem ways_sequence_of_decided {first next : TextPattern Part}
    {text : List Char} {found : TextMatch Part} {others : List (TextMatch Part)}
    (listed : first.ways text = found :: others)
    (fails : ∀ other ∈ others, next.ways other.rest = []) :
    (sequence first next).ways text =
      (next.ways found.rest).map found.followedBy := by
  have nothing : (others.flatMap fun other =>
      (next.ways other.rest).map other.followedBy) = [] := by
    rw [List.flatMap_eq_nil_iff]
    intro other member
    rw [fails other member, List.map_nil]
  rw [ways, listed, List.flatMap_cons, nothing, List.append_nil]

theorem ways_literally_append (word rest : List Char) :
    (literally word : TextPattern Part).ways (word ++ rest) =
      [⟨word, [], rest⟩] := by
  induction word with
  | nil => rfl
  | cons character later ih =>
      simp [literally, ways, ih, TextMatch.followedBy]

theorem ways_literally_eq_nil {word text : List Char}
    (other : ¬ word <+: text) :
    (literally word : TextPattern Part).ways text = [] := by
  induction word generalizing text with
  | nil => exact absurd List.nil_prefix other
  | cons character later ih =>
      cases text with
      | nil => rfl
      | cons first rest =>
          by_cases same : first = character
          · have inner := ih fun starts =>
              other (List.cons_prefix_cons.2 ⟨same.symm, starts⟩)
            simp [literally, ways, same, inner]
          · simp [literally, ways, same]

theorem first?_run (characters : CharacterClass) (text : List Char) :
    (run characters : TextPattern Part).first? text =
      if (text.takeWhile characters.accepts).isEmpty then none
      else some ⟨text.takeWhile characters.accepts, [],
        text.dropWhile characters.accepts⟩ := by
  by_cases stops : text.takeWhile characters.accepts = []
  · rw [first?, ways_run_eq_nil stops, stops]
    rfl
  · obtain ⟨shorter, listed, _⟩ := exists_ways_run stops
    rw [first?, listed]
    simp [stops]

theorem first?_choice (preferred other : TextPattern Part) (text : List Char) :
    (choice preferred other).first? text =
      (preferred.first? text).or (other.first? text) := by
  rw [first?, ways, List.head?_append]
  rfl

theorem first?_group (part : Part) (inner : TextPattern Part)
    (text : List Char) :
    (group part inner).first? text =
      (inner.first? text).map (TextMatch.inGroup part) := by
  rw [first?, ways, List.head?_map]
  rfl

/-- The first way of a sequence has the first way of the pattern in front that
the next one can follow. -/
theorem first?_sequence (first next : TextPattern Part) (text : List Char) :
    (sequence first next).first? text =
      (first.ways text).findSome? fun found =>
        (next.first? found.rest).map found.followedBy := by
  rw [first?, ways, List.head?_flatMap]
  simp only [List.head?_map, first?]

end TextPattern

end ProxyLint
