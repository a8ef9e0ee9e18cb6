import ProxyLint.Proofs.Variables.Expansion
import Mathlib.Data.List.Chain

/-!
# Cutting a script and writing it

A text is a script if every dollar sign that is met from left to right is
followed by a name, bare or in braces.  The segments of a script, written one
after the other, are the script again, and they are in a normal form: no
fragment is empty or has a dollar sign, and no two fragments are adjacent.
Conversely a list of segments in normal form is found again when every variable
is written with braces.
-/

namespace ProxyLint

namespace Segment

/-- The ways to write a segment. -/
inductive Spelling : Segment → List Char → Prop where
  | literal (text : String) : Spelling (.literal text) text.toList
  | bare (name : String) : Spelling (.variable name) ('$' :: name.toList)
  | braced (name : String) :
      Spelling (.variable name) ('$' :: '{' :: (name.toList ++ ['}']))

/-- A segment with braces around the name of a variable. -/
def braced : Segment → List Char
  | .literal text => text.toList
  | .variable name => '$' :: '{' :: (name.toList ++ ['}'])

/-- A fragment has a text without dollar signs, and a name is a word of
letters, digits and underscores. -/
def WellFormed : Segment → Prop
  | .literal text => text ≠ "" ∧ '$' ∉ text.toList
  | .variable name => Script.isName name.toList = true

end Segment

namespace Script

/-- A name and what follows it, read behind a dollar sign. -/
inductive Mention : List Char → List Char → List Char → Prop where
  | braced {name after : List Char} (valid : isName name = true) :
      Mention ('{' :: (name ++ '}' :: after)) name after
  | bare {name after : List Char} (word : BareName name after) :
      Mention (name ++ after) name after

/-- From left to right, a name follows every dollar sign that is met.  The
names are listed in order. -/
inductive Scans : List Char → List String → Prop where
  | done : Scans [] []
  | other {character : Char} {rest : List Char} {names : List String}
      (plain : character ≠ '$') (later : Scans rest names) :
      Scans (character :: rest) names
  | mention {rest name after : List Char} {names : List String}
      (named : Mention rest name after) (later : Scans after names) :
      Scans ('$' :: rest) (String.ofList name :: names)

/-- Segments that could not be joined or dropped. -/
structure Normal (parts : List Segment) : Prop where
  wellFormed : ∀ part ∈ parts, part.WellFormed
  separated : parts.IsChain fun first second =>
    first.name? = none → second.name? ≠ none

/-- A script with braces around every name. -/
def braced (parts : List Segment) : String :=
  String.ofList (parts.flatMap Segment.braced)

theorem BareName.isName {name after : List Char}
    (word : BareName name after) : isName name = true := by
  cases word with
  | digit numbered =>
      simp [Script.isName, isNameCharacter, Char.isAlphanum, numbered]
  | word valid _ _ => exact valid

theorem BareName.head?_ne {name after : List Char}
    (word : BareName name after) : (name ++ after).head? ≠ some '{' := by
  have valid := word.isName
  cases name with
  | nil => cases valid
  | cons first later =>
      intro opened
      obtain rfl : first = '{' := by simpa using opened
      exact absurd (isName_inside valid _ List.mem_cons_self) (by decide)

theorem Mention.isName {text name after : List Char}
    (named : Mention text name after) : isName name = true := by
  cases named with
  | braced valid => exact valid
  | bare word => exact word.isName

/-- The reader finds the name that stands there, and no other. -/
theorem nameAt_eq_ok_iff {text name after : List Char} :
    nameAt text = .ok (name, after) ↔ Mention text name after := by
  by_cases opened : text.head? = some '{'
  · obtain ⟨rest, rfl⟩ := List.head?_eq_some_iff.1 opened
    rw [nameAt_braced_eq_ok_iff]
    constructor
    · rintro ⟨rfl, valid⟩
      exact .braced valid
    · intro named
      generalize whole : '{' :: rest = text at named opened
      cases named with
      | braced valid => exact ⟨(List.cons.inj whole).2, valid⟩
      | bare word => exact absurd opened word.head?_ne
  · rw [nameAt_bare_eq_ok_iff opened]
    constructor
    · rintro ⟨rfl, word⟩
      exact .bare word
    · intro named
      cases named with
      | braced _ => exact absurd rfl opened
      | bare word => exact ⟨rfl, word⟩

theorem names_flush (fragment : List Char) (parts : List Segment) :
    (flush fragment parts).filterMap Segment.name? =
      parts.filterMap Segment.name? := by
  unfold flush
  split <;> rfl

/-- A text is cut exactly if it is a script, and then its variables have the
names in the text. -/
theorem split_names_iff {fragment text : List Char} {names : List String} :
    (∃ parts, split fragment text = .ok parts ∧
      parts.filterMap Segment.name? = names) ↔ Scans text names := by
  fun_induction split fragment text generalizing names with
  | case1 fragment =>
      simp only [Except.ok.injEq, exists_eq_left', names_flush]
      constructor
      · rintro rfl
        exact .done
      · intro scans
        cases scans
        rfl
  | case2 fragment rest fault unnamed =>
      constructor
      · rintro ⟨_, impossible, _⟩
        cases impossible
      · intro scans
        cases scans with
        | other plain _ => exact absurd rfl plain
        | mention named _ =>
            rw [nameAt_eq_ok_iff.2 named] at unnamed
            cases unnamed
  | case3 fragment rest name after named _ ih =>
      constructor
      · rintro ⟨parts, cut, rfl⟩
        obtain ⟨inner, cutAfter, rfl⟩ := exists_of_map_eq_ok cut
        rw [names_flush]
        exact .mention (nameAt_eq_ok_iff.1 named) (ih.1 ⟨inner, cutAfter, rfl⟩)
      · intro scans
        cases scans with
        | other plain _ => exact absurd rfl plain
        | mention again later =>
            rw [nameAt_eq_ok_iff.2 again] at named
            cases named
            obtain ⟨inner, cutAfter, rfl⟩ := ih.2 later
            rw [cutAfter]
            exact ⟨_, rfl, names_flush _ _⟩
  | case4 fragment character rest other ih =>
      rw [ih]
      constructor
      · exact fun later => .other other later
      · intro scans
        cases scans with
        | other _ later => exact later
        | mention _ _ => exact absurd rfl other

/-- Segments and the text that they are written as. -/
def WrittenAs (parts : List Segment) (text : List Char) : Prop :=
  ∃ pieces, List.Forall₂ Segment.Spelling parts pieces ∧ text = pieces.flatten

theorem WrittenAs.cons {part : Segment} {parts : List Segment}
    {own text : List Char} (spelled : part.Spelling own)
    (written : WrittenAs parts text) :
    WrittenAs (part :: parts) (own ++ text) := by
  obtain ⟨pieces, spelledLater, rfl⟩ := written
  exact ⟨own :: pieces, .cons spelled spelledLater, rfl⟩

theorem WrittenAs.flush {fragment text : List Char} {parts : List Segment}
    (written : WrittenAs parts text) :
    WrittenAs (flush fragment parts) (fragment.reverse ++ text) := by
  unfold Script.flush
  split
  next empty =>
    rw [List.isEmpty_iff.1 empty]
    exact written
  next =>
    have spelled := Segment.Spelling.literal (String.ofList fragment.reverse)
    rw [String.toList_ofList] at spelled
    exact written.cons spelled

theorem Mention.exists_spelling {rest name after : List Char}
    (named : Mention rest name after) :
    ∃ own, (Segment.variable (String.ofList name)).Spelling own ∧
      '$' :: rest = own ++ after := by
  cases named with
  | braced _ => exact ⟨_, .braced _, by simp⟩
  | bare _ => exact ⟨_, .bare _, by simp⟩

/-- The segments of a script are written as the script. -/
theorem writtenAs_of_split {fragment text : List Char}
    {parts : List Segment} (cut : split fragment text = .ok parts) :
    WrittenAs parts (fragment.reverse ++ text) := by
  fun_induction split fragment text generalizing parts with
  | case1 fragment =>
      cases cut
      exact WrittenAs.flush ⟨[], .nil, rfl⟩
  | case2 fragment rest fault unnamed => cases cut
  | case3 fragment rest name after named _ ih =>
      obtain ⟨inner, cutAfter, rfl⟩ := exists_of_map_eq_ok cut
      obtain ⟨own, spelled, whole⟩ :=
        (nameAt_eq_ok_iff.1 named).exists_spelling
      rw [whole]
      exact ((ih cutAfter).cons spelled).flush
  | case4 fragment character rest _ ih => simpa using ih cut

theorem Normal.mention {name : List Char} {parts : List Segment}
    (normal : Normal parts) (valid : isName name = true) :
    Normal (.variable (String.ofList name) :: parts) where
  wellFormed := by
    refine List.forall_mem_cons.2 ⟨?_, normal.wellFormed⟩
    simpa [Segment.WellFormed] using valid
  separated := by
    refine List.isChain_cons.2 ⟨fun next _ unnamed => ?_, normal.separated⟩
    cases unnamed

/-- A pending fragment may be put in front of a variable or at the end. -/
theorem Normal.flush {fragment : List Char} {parts : List Segment}
    (normal : Normal parts) (plain : '$' ∉ fragment)
    (starts : ∀ first ∈ parts.head?, first.name? ≠ none) :
    Normal (flush fragment parts) := by
  unfold Script.flush
  split
  next => exact normal
  next present =>
    refine ⟨List.forall_mem_cons.2 ⟨?_, normal.wellFormed⟩,
      List.isChain_cons.2 ⟨fun first head _ => starts first head,
        normal.separated⟩⟩
    simpa [Segment.WellFormed, String.ofList_eq_empty_iff, plain]
      using present

/-- The segments of a script are in normal form. -/
theorem normal_of_split {fragment text : List Char} {parts : List Segment}
    (plain : '$' ∉ fragment) (cut : split fragment text = .ok parts) :
    Normal parts := by
  fun_induction split fragment text generalizing parts with
  | case1 fragment =>
      cases cut
      exact Normal.flush ⟨by simp, .nil⟩ plain (by simp)
  | case2 fragment rest fault unnamed => cases cut
  | case3 fragment rest name after named _ ih =>
      obtain ⟨inner, cutAfter, rfl⟩ := exists_of_map_eq_ok cut
      have valid := (nameAt_eq_ok_iff.1 named).isName
      exact ((ih (by simp) cutAfter).mention valid).flush plain
        (by simp [Segment.name?])
  | case4 fragment character rest other ih =>
      refine ih ?_ cut
      rw [List.mem_cons, not_or]
      exact ⟨Ne.symm other, plain⟩

theorem split_append {front : List Char} (plain : '$' ∉ front)
    (fragment rest : List Char) :
    split fragment (front ++ rest) = split (front.reverse ++ fragment) rest := by
  induction front generalizing fragment with
  | nil => rfl
  | cons character front ih =>
      obtain ⟨other, later⟩ := List.ne_and_not_mem_of_not_mem_cons plain
      rw [List.cons_append, split_other (Ne.symm other), ih later]
      simp

theorem split_mention {rest name after : List Char}
    (named : Mention rest name after) (fragment : List Char) :
    split fragment ('$' :: rest) =
      (fun parts => flush fragment (.variable (String.ofList name) :: parts))
        <$> split [] after := by
  have found := nameAt_eq_ok_iff.2 named
  rw [split]
  split
  next fault unnamed =>
    rw [found] at unnamed
    cases unnamed
  next other behind again =>
    rw [found] at again
    cases again
    rfl

/-- Segments in normal form are found again behind a pending fragment, unless
the first of them continues the fragment. -/
theorem split_braced {parts : List Segment} (normal : Normal parts)
    {fragment : List Char}
    (starts : fragment ≠ [] → ∀ first ∈ parts.head?, first.name? ≠ none) :
    split fragment (parts.flatMap Segment.braced) =
      .ok (flush fragment parts) := by
  induction parts generalizing fragment with
  | nil =>
      rw [List.flatMap_nil, split]
  | cons part parts ih =>
      obtain ⟨own, wellFormed⟩ := List.forall_mem_cons.1 normal.wellFormed
      obtain ⟨next, separated⟩ := List.isChain_cons.1 normal.separated
      have later : Normal parts := ⟨wellFormed, separated⟩
      rw [List.flatMap_cons]
      rcases part with text | name
      · obtain rfl : fragment = [] := by
          by_contra pending
          exact starts pending _ rfl rfl
        rw [Segment.braced, split_append own.2,
          ih later fun _ first head => next first head rfl]
        simp [flush, own.1]
      · let rest := parts.flatMap Segment.braced
        have named : Mention ('{' :: (name.toList ++ '}' :: rest)) name.toList
            rest := .braced own
        have whole : Segment.braced (.variable name) ++ rest =
            '$' :: '{' :: (name.toList ++ '}' :: rest) := by
          simp [Segment.braced]
        have cutRest : split [] rest = .ok (flush [] parts) :=
          ih later fun pending => absurd rfl pending
        rw [whole, split_mention named, cutRest, String.ofList_toList]
        rfl

end Script

theorem segments_braced {parts : List Segment} (normal : Script.Normal parts) :
    segments (Script.braced parts) = .ok parts := by
  rw [segments_eq_ok_iff, Script.braced, String.toList_ofList,
    Script.split_braced normal fun pending => absurd rfl pending]
  rfl

end ProxyLint
