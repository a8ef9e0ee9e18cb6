import ProxyLint.Proofs.Text.Search
import ProxyLint.Proofs.Variables.Folding

/-!
# Replacing the variables of a text

A script is folded fragment by fragment, while the text it comes from can be
read character by character.  Replacing every variable on the way gives the
same text.  Seen like this, folding can be cut: what stands before a character
that belongs to no variable is folded on its own, and so is what follows.
-/

namespace ProxyLint

namespace Script

theorem isName_inside {name : List Char} (valid : isName name = true) :
    ∀ character ∈ name, isNameCharacter character = true := by
  rw [isName, Bool.and_eq_true] at valid
  exact List.all_eq_true.1 valid.2

theorem nameAt_braced_eq_ok_iff {text name after : List Char} :
    nameAt ('{' :: text) = .ok (name, after) ↔
      text = name ++ '}' :: after ∧ isName name = true := by
  constructor
  · intro named
    unfold nameAt at named
    split at named
    next rest same =>
      obtain ⟨_, rfl⟩ := List.cons.inj same
      split at named
      next => cases named
      next closing tail dropped =>
        split at named
        next valid =>
          cases named
          have closes := List.head?_dropWhile_not (fun c => c != '}') text
          rw [dropped] at closes
          obtain rfl : closing = '}' := by simpa using closes
          refine ⟨?_, valid⟩
          rw [← dropped, List.takeWhile_append_dropWhile]
        next => cases named
    next other => exact absurd rfl (other text)
  · rintro ⟨rfl, valid⟩
    have inside : ∀ character ∈ name, (character != '}') = true := by
      intro character member
      rw [bne_iff_ne]
      rintro rfl
      exact absurd (isName_inside valid _ member) (by decide)
    have stops : ∀ character ∈ ('}' :: after).head?,
        (character != '}') = false := by simp
    obtain ⟨taken, dropped⟩ := Text.run_of_append inside stops
    simp [nameAt, taken, dropped, valid]

/-- What is read as a name without braces: a digit or everything up to the
first character that no name contains. -/
inductive BareName : List Char → List Char → Prop where
  | digit {digit : Char} {after : List Char} (numbered : digit.isDigit = true) :
      BareName [digit] after
  | word {name after : List Char} (valid : isName name = true)
      (undigited : name.head?.any Char.isDigit = false)
      (stops : ∀ character ∈ after.head?, isNameCharacter character = false) :
      BareName name after

theorem nameAt_bare_eq_ok_iff {text name after : List Char}
    (unbraced : text.head? ≠ some '{') :
    nameAt text = .ok (name, after) ↔
      text = name ++ after ∧ BareName name after := by
  constructor
  · intro named
    unfold nameAt at named
    split at named
    next rest => exact absurd rfl unbraced
    next =>
      split at named
      next numbered =>
        cases named
        cases text with
        | nil => cases numbered
        | cons digit later => exact ⟨rfl, .digit numbered⟩
      next undigited =>
        split at named
        next => cases named
        next nonempty =>
          cases named
          refine ⟨List.takeWhile_append_dropWhile.symm, .word ?_ ?_ ?_⟩
          · simp [isName, nonempty]
          · cases text with
            | nil => rfl
            | cons first later =>
                rw [List.takeWhile_cons]
                split
                next => simpa using undigited
                next => rfl
          · intro character first
            have stops := List.head?_dropWhile_not isNameCharacter text
            rw [Option.mem_def.1 first] at stops
            simpa using stops
  · rintro ⟨rfl, bare⟩
    unfold nameAt
    split
    next rest same =>
      rw [same] at unbraced
      exact absurd rfl unbraced
    next =>
      cases bare with
      | digit numbered => simp [numbered]
      | word valid undigited stops =>
        obtain ⟨taken, dropped⟩ :=
          Text.run_of_append (isName_inside valid) stops
        cases name with
        | nil => cases valid
        | cons first later =>
            have plain : first.isDigit = false := by simpa using undigited
            rw [taken, dropped]
            simp [plain]

/-- No variable contains such a character, whatever stands in front of it. -/
def EndsVariable (character : Char) : Prop :=
  isNameCharacter character = false ∧ character ≠ '{' ∧ character ≠ '}'

theorem eq_nil_of_ends {text name after : List Char}
    (stops : ∀ character ∈ text.head?, EndsVariable character)
    (inside : ∀ character ∈ name, isNameCharacter character = true)
    (whole : text = name ++ after) : name = [] := by
  cases name with
  | nil => rfl
  | cons first later =>
      have ends := stops first (by simp [whole])
      rw [EndsVariable, inside first List.mem_cons_self] at ends
      cases ends.1

theorem BareName.inside {name after : List Char} (bare : BareName name after) :
    ∀ character ∈ name, isNameCharacter character = true := by
  cases bare with
  | digit numbered => simp [isNameCharacter, Char.isAlphanum, numbered]
  | word valid _ _ => exact isName_inside valid

theorem BareName.of_append {name inner rest : List Char}
    (bare : BareName name (inner ++ rest)) : BareName name inner := by
  cases bare with
  | digit numbered => exact .digit numbered
  | word valid undigited stops =>
      refine .word valid undigited fun character first => stops character ?_
      rw [List.head?_append, Option.mem_def.1 first]
      rfl

/-- A name is read in front of a character that ends it. -/
theorem nameAt_append {front rest name after : List Char}
    (stops : ∀ character ∈ rest.head?, EndsVariable character)
    (named : nameAt (front ++ rest) = .ok (name, after)) :
    ∃ inner, nameAt front = .ok (name, inner) ∧ after = inner ++ rest := by
  by_cases braced : front.head? = some '{'
  · obtain ⟨later, rfl⟩ := List.head?_eq_some_iff.1 braced
    rw [List.cons_append, nameAt_braced_eq_ok_iff] at named
    obtain ⟨whole, valid⟩ := named
    have inside := isName_inside valid
    have unclosed : rest ≠ '}' :: after := by
      rintro rfl
      exact (stops '}' rfl).2.2 rfl
    rcases List.append_eq_append_iff.1 whole with
      ⟨extra, rfl, split⟩ | ⟨inner, rfl, split⟩
    · obtain rfl := eq_nil_of_ends stops
        (fun character member => inside character
          (List.mem_append_right later member)) split
      exact absurd split unclosed
    · cases inner with
      | nil => exact absurd split.symm unclosed
      | cons closing inner =>
          obtain ⟨rfl, rfl⟩ := List.cons.inj split
          exact ⟨inner, nameAt_braced_eq_ok_iff.2 ⟨rfl, valid⟩, rfl⟩
  · have unbraced : (front ++ rest).head? ≠ some '{' := by
      cases front with
      | nil => exact fun opened => (stops '{' opened).2.1 rfl
      | cons first later => exact braced
    obtain ⟨whole, bare⟩ := (nameAt_bare_eq_ok_iff unbraced).1 named
    rcases List.append_eq_append_iff.1 whole with
      ⟨extra, rfl, split⟩ | ⟨inner, rfl, rfl⟩
    · obtain rfl := eq_nil_of_ends stops
        (fun character member => bare.inside character
          (List.mem_append_right front member)) split
      have alone : BareName (front ++ []) [] := @bare.of_append _ [] after
      exact ⟨[], (nameAt_bare_eq_ok_iff braced).2 ⟨by simp, alone⟩,
        split.symm⟩
    · exact ⟨inner, (nameAt_bare_eq_ok_iff braced).2 ⟨rfl, bare.of_append⟩,
        rfl⟩

/-- A text and what it becomes when every variable is replaced by its value. -/
inductive Expands (variableValue : String → Option String) :
    List Char → List Char → Prop where
  | done : Expands variableValue [] []
  | other {character : Char} {rest expanded : List Char}
      (plain : character ≠ '$') (later : Expands variableValue rest expanded) :
      Expands variableValue (character :: rest) (character :: expanded)
  | mention {rest name after expanded : List Char} {value : String}
      (named : nameAt rest = .ok (name, after))
      (known : variableValue (String.ofList name) = some value)
      (later : Expands variableValue after expanded) :
      Expands variableValue ('$' :: rest) (value.toList ++ expanded)

variable {variableValue : String → Option String}

/-- All segments of a script have values, which make up this text. -/
def HaveText (variableValue : String → Option String) (parts : List Segment)
    (text : List Char) : Prop :=
  ∃ known, concatenate? (parts.map (Segment.value? variableValue)) =
    some known ∧ known.toList = text

theorem haveText_nil {text : List Char} :
    HaveText variableValue [] text ↔ text = [] := by
  simp [HaveText, concatenate?, eq_comm]

theorem haveText_cons {segment : Segment} {parts : List Segment}
    {text : List Char} :
    HaveText variableValue (segment :: parts) text ↔
      ∃ value later, segment.value? variableValue = some value ∧
        HaveText variableValue parts later ∧ text = value.toList ++ later := by
  cases found : segment.value? variableValue with
  | none => simp [HaveText, concatenate?, found]
  | some value =>
      simp only [HaveText, List.map_cons, found, concatenate?,
        Option.map_eq_map, Option.map_eq_some_iff, Option.some.injEq]
      constructor
      · rintro ⟨_, ⟨known, joined, rfl⟩, rfl⟩
        exact ⟨value, known.toList, rfl, ⟨known, joined, rfl⟩,
          String.toList_append⟩
      · rintro ⟨_, _, rfl, ⟨known, joined, rfl⟩, rfl⟩
        exact ⟨value ++ known, ⟨known, joined, rfl⟩, String.toList_append⟩

theorem haveText_flush {fragment : List Char} {parts : List Segment}
    {text : List Char} :
    HaveText variableValue (flush fragment parts) text ↔
      ∃ later, HaveText variableValue parts later ∧
        text = fragment.reverse ++ later := by
  cases fragment with
  | nil => simp [flush]
  | cons last earlier => simp [flush, haveText_cons, Segment.value?]

theorem exists_of_map_eq_ok {ε α β : Type} {change : α → β}
    {outcome : Except ε α} {result : β}
    (made : change <$> outcome = .ok result) :
    ∃ value, outcome = .ok value ∧ change value = result := by
  cases outcome with
  | error fault => cases made
  | ok value =>
      cases made
      exact ⟨value, rfl, rfl⟩

/-- Cutting a text into segments and joining their values replaces its
variables. -/
theorem split_haveText_iff {fragment text expanded : List Char} :
    (∃ parts, split fragment text = .ok parts ∧
      HaveText variableValue parts expanded) ↔
      ∃ later, Expands variableValue text later ∧
        expanded = fragment.reverse ++ later := by
  fun_induction split fragment text generalizing expanded with
  | case1 fragment =>
      simp only [Except.ok.injEq, exists_eq_left', haveText_flush,
        haveText_nil]
      constructor
      · rintro ⟨later, rfl, same⟩
        exact ⟨[], .done, same⟩
      · rintro ⟨later, expands, same⟩
        cases expands
        exact ⟨[], rfl, same⟩
  | case2 fragment rest fault unnamed =>
      constructor
      · rintro ⟨_, impossible, _⟩
        cases impossible
      · rintro ⟨later, expands, _⟩
        cases expands with
        | other plain _ => exact absurd rfl plain
        | mention named _ _ =>
            rw [unnamed] at named
            cases named
  | case3 fragment rest name after named _ ih =>
      constructor
      · rintro ⟨parts, cut, text⟩
        obtain ⟨inner, cutAfter, rfl⟩ := exists_of_map_eq_ok cut
        obtain ⟨_, variableText, rfl⟩ := haveText_flush.1 text
        obtain ⟨value, _, known, later, rfl⟩ := haveText_cons.1 variableText
        obtain ⟨_, expands, rfl⟩ := ih.1 ⟨inner, cutAfter, later⟩
        exact ⟨_, .mention named known expands, rfl⟩
      · rintro ⟨_, expands, rfl⟩
        cases expands with
        | other plain _ => exact absurd rfl plain
        | mention again known later =>
            rw [named] at again
            cases again
            obtain ⟨inner, cutAfter, text⟩ := ih.2 ⟨_, later, rfl⟩
            rw [cutAfter]
            exact ⟨_, rfl, haveText_flush.2
              ⟨_, haveText_cons.2 ⟨_, _, known, text, rfl⟩, rfl⟩⟩
  | case4 fragment character rest other ih =>
      rw [ih]
      constructor
      · rintro ⟨later, expands, rfl⟩
        exact ⟨_, .other other expands, by simp⟩
      · rintro ⟨_, expands, rfl⟩
        cases expands with
        | other plain later => exact ⟨_, later, by simp⟩
        | mention _ _ _ => exact absurd rfl other

/-- What stands in front of a character that ends variables is replaced on its
own. -/
theorem Expands.cut {front rest expanded : List Char}
    (expands : Expands variableValue (front ++ rest) expanded)
    (stops : ∀ character ∈ rest.head?, EndsVariable character) :
    ∃ before behind, expanded = before ++ behind ∧
      Expands variableValue front before ∧
        Expands variableValue rest behind := by
  generalize whole : front ++ rest = text at expands
  induction expands generalizing front with
  | done =>
      obtain ⟨rfl, rfl⟩ := List.append_eq_nil_iff.1 whole
      exact ⟨[], [], rfl, .done, .done⟩
  | @other character text expanded plain later ih =>
      cases front with
      | nil =>
          obtain rfl : rest = character :: text := whole
          exact ⟨[], _, rfl, .done, .other plain later⟩
      | cons first others =>
          obtain ⟨rfl, rfl⟩ := List.cons.inj whole
          obtain ⟨before, behind, rfl, head, tail⟩ := ih rfl
          exact ⟨_, behind, rfl, .other plain head, tail⟩
  | @mention text name after expanded value named known later ih =>
      cases front with
      | nil =>
          obtain rfl : rest = '$' :: text := whole
          exact ⟨[], _, rfl, .done, .mention named known later⟩
      | cons first others =>
          obtain ⟨rfl, rfl⟩ := List.cons.inj whole
          obtain ⟨inner, namedBefore, rfl⟩ := nameAt_append stops named
          obtain ⟨before, behind, rfl, head, tail⟩ := ih rfl
          exact ⟨_, behind, (List.append_assoc _ _ _).symm,
            .mention namedBefore known head, tail⟩

theorem expands_of_plain {text : List Char} (plain : '$' ∉ text) :
    Expands variableValue text text := by
  induction text with
  | nil => exact .done
  | cons character rest ih =>
      obtain ⟨other, later⟩ := List.ne_and_not_mem_of_not_mem_cons plain
      exact .other (Ne.symm other) (ih later)

/-- A text without variables stays as it is in front of any other. -/
theorem Expands.of_plain_append {front rest expanded : List Char}
    (expands : Expands variableValue (front ++ rest) expanded)
    (plain : '$' ∉ front) :
    ∃ behind, expanded = front ++ behind ∧
      Expands variableValue rest behind := by
  induction front generalizing expanded with
  | nil => exact ⟨expanded, rfl, expands⟩
  | cons character later ih =>
      obtain ⟨other, absent⟩ := List.ne_and_not_mem_of_not_mem_cons plain
      cases expands with
      | other _ inner =>
          obtain ⟨behind, rfl, tail⟩ := ih inner absent
          exact ⟨behind, rfl, tail⟩
      | mention _ _ _ => exact absurd rfl other

/-- A character at the front that begins no variable stays at the front. -/
theorem Expands.head?_eq {text expanded : List Char}
    (expands : Expands variableValue text expanded)
    (plain : text.head? ≠ some '$') : expanded.head? = text.head? := by
  cases expands with
  | done => rfl
  | other _ _ => rfl
  | mention _ _ _ => exact absurd rfl plain

end Script

open Script

/-- The host that a script stands for is its text with all variables replaced
by their values. -/
theorem ConfigTree.resolveHost_eq_resolved_iff_expands {tree : ConfigTree}
    {scope : Nat} {text host : String} :
    tree.resolveHost scope text = .resolved host ↔
      Expands (tree.variableValue scope) text.toList host.toList := by
  have replaced := @split_haveText_iff (tree.variableValue scope) []
    text.toList host.toList
  simp only [List.reverse_nil, List.nil_append, exists_eq_right',
    ← segments_eq_ok_iff] at replaced
  rw [← replaced]
  constructor
  · intro resolved
    cases cut : segments text with
    | error fault => simp [resolveHost, compile, cut] at resolved
    | ok parts =>
        rw [resolveHost_eq_resolved_iff (compile_of_segments cut),
          List.map_map] at resolved
        exact ⟨parts, rfl, host, resolved, rfl⟩
  · rintro ⟨parts, cut, known, joined, same⟩
    obtain rfl := String.toList_injective same
    rw [resolveHost_eq_resolved_iff (compile_of_segments cut), List.map_map]
    exact joined

end ProxyLint
