import ProxyLint.Proofs.Text.LetterCase
import ProxyLint.Proofs.Variables.Segmentation
import Mathlib.Data.List.Forall2

/-!
# Scripts in other letters

Two texts may differ in nothing but the case of letters in the names of
variables.  They are then cut at the same places, into segments that differ in
those names only.  So they have the same values if the variables have.
-/

namespace ProxyLint

namespace Variable

theorem isBuiltin_eq_of_lowerAscii_eq {name spelled : String}
    (same : Text.lowerAscii name = Text.lowerAscii spelled) :
    isBuiltin name = isBuiltin spelled := by
  simp only [isBuiltin, same]

theorem isCapture_eq_of_lowerAscii_eq {name spelled : String}
    (same : Text.lowerAscii name = Text.lowerAscii spelled) :
    isCapture name = isCapture spelled :=
  (Text.lowerAscii_eq_iff.1 same).all_eq Text.isDigit_toLower

end Variable

namespace Segment

/-- The same fragment, or a variable with other letters in its name. -/
inductive Respelled (changed : String → String → Prop) :
    Segment → Segment → Prop where
  | literal (text : String) : Respelled changed (.literal text) (.literal text)
  | mention {name spelled : String}
      (same : Text.lowerAscii name = Text.lowerAscii spelled)
      (allowed : changed name spelled) :
      Respelled changed (.variable name) (.variable spelled)

end Segment

namespace Script

/-- Two texts that differ in the case of letters in the names of variables, and
only as the given relation between names allows.  Behind a dollar sign that no
name follows nothing is changed. -/
inductive Respelled (changed : String → String → Prop) :
    List Char → List Char → Prop where
  | done : Respelled changed [] []
  | other {character : Char} {rest respelled : List Char}
      (plain : character ≠ '$') (later : Respelled changed rest respelled) :
      Respelled changed (character :: rest) (character :: respelled)
  | braced {name spelled after respelled : List Char}
      (valid : isName name = true) (same : Text.SameLetters name spelled)
      (allowed : changed (String.ofList name) (String.ofList spelled))
      (later : Respelled changed after respelled) :
      Respelled changed ('$' :: '{' :: (name ++ '}' :: after))
        ('$' :: '{' :: (spelled ++ '}' :: respelled))
  | bare {name spelled after respelled : List Char}
      (word : BareName name after) (same : Text.SameLetters name spelled)
      (allowed : changed (String.ofList name) (String.ofList spelled))
      (later : Respelled changed after respelled) :
      Respelled changed ('$' :: (name ++ after)) ('$' :: (spelled ++ respelled))
  | nameless {rest : List Char}
      (nameless : ∀ name after, ¬ Mention rest name after) :
      Respelled changed ('$' :: rest) ('$' :: rest)

theorem isNameCharacter_toLower (character : Char) :
    isNameCharacter character.toLower =
      isNameCharacter character := by
  rcases Text.toLower_cases character with same | ⟨place, bound, rfl⟩
  · rw [same]
  · revert place
    decide

theorem isName_of_sameLetters {name spelled : List Char}
    (valid : isName name = true) (same : Text.SameLetters name spelled) :
    isName spelled = true := by
  rwa [isName, ← same.isEmpty_eq,
    ← same.all_eq isNameCharacter_toLower]

variable {changed : String → String → Prop}

theorem Respelled.head?_eq {text respelled : List Char}
    (texts : Respelled changed text respelled) :
    respelled.head? = text.head? := by
  cases texts <;> rfl

theorem bareName_of_checks {name after : List Char}
    (valid : isName name = true)
    (undigited : name.head?.any Char.isDigit = false)
    (stops : after.head?.any isNameCharacter = false) : BareName name after :=
  .word valid undigited fun character first => by
    rwa [Option.mem_def.1 first] at stops

/-- A bare name in other letters ends where the name ended. -/
theorem BareName.respelled {name spelled after respelled : List Char}
    (word : BareName name after) (same : Text.SameLetters name spelled)
    (later : Respelled changed after respelled) :
    BareName spelled respelled := by
  cases word with
  | digit numbered =>
      cases spelled with
      | nil => cases same
      | cons digit spelled =>
          cases spelled with
          | nil =>
              have digits := same.all_eq Text.isDigit_toLower
              exact .digit (by simpa [numbered] using digits.symm)
          | cons _ _ => cases congrArg List.length same
  | word valid undigited stops =>
      refine .word (isName_of_sameLetters valid same) ?_ ?_
      · rwa [← same.head?_any_eq Text.isDigit_toLower]
      · rwa [later.head?_eq]

theorem respelled_of_plain {text : List Char} (plain : '$' ∉ text) :
    Respelled changed text text := by
  induction text with
  | nil => exact .done
  | cons character rest ih =>
      obtain ⟨other, later⟩ := List.ne_and_not_mem_of_not_mem_cons plain
      exact .other (Ne.symm other) (ih later)

/-- Both texts are cut into the same segments, but for the letters in names, or
neither is a script. -/
def CutAlike (changed : String → String → Prop)
    (cut otherCut : Except ScriptFault (List Segment)) : Prop :=
  (∃ parts others, cut = .ok parts ∧ otherCut = .ok others ∧
    List.Forall₂ (Segment.Respelled changed) parts others) ∨
  ∃ fault, cut = .error fault ∧ otherCut = .error fault

theorem CutAlike.flush {parts others : List Segment}
    (alike : List.Forall₂ (Segment.Respelled changed) parts others)
    (fragment : List Char) :
    List.Forall₂ (Segment.Respelled changed) (Script.flush fragment parts)
      (Script.flush fragment others) := by
  unfold Script.flush
  split
  · exact alike
  · exact .cons (.literal _) alike

theorem CutAlike.mention {rest name after otherRest spelled otherAfter :
      List Char} (named : Mention rest name after)
    (otherNamed : Mention otherRest spelled otherAfter)
    (same : Text.SameLetters name spelled)
    (allowed : changed (String.ofList name) (String.ofList spelled))
    (later : CutAlike changed (split [] after) (split [] otherAfter))
    (fragment : List Char) :
    CutAlike changed (split fragment ('$' :: rest))
      (split fragment ('$' :: otherRest)) := by
  rw [split_mention named, split_mention otherNamed]
  have lowered : Text.lowerAscii (String.ofList name) =
      Text.lowerAscii (String.ofList spelled) := by
    rw [Text.lowerAscii_eq_iff, String.toList_ofList, String.toList_ofList]
    exact same
  rcases later with ⟨parts, others, cut, otherCut, alike⟩ |
    ⟨fault, cut, otherCut⟩
  · refine .inl ⟨_, _, by rw [cut]; rfl, by rw [otherCut]; rfl, ?_⟩
    exact CutAlike.flush (.cons (.mention lowered allowed) alike) fragment
  · exact .inr ⟨fault, by rw [cut]; rfl, by rw [otherCut]; rfl⟩

theorem split_nameless {rest : List Char}
    (nameless : ∀ name after, ¬ Mention rest name after)
    (fragment : List Char) :
    ∃ fault, split fragment ('$' :: rest) = .error fault := by
  cases cut : split fragment ('$' :: rest) with
  | error fault => exact ⟨fault, rfl⟩
  | ok parts =>
      obtain ⟨names, scans⟩ : ∃ names, Scans ('$' :: rest) names :=
        ⟨_, split_names_iff.1 ⟨parts, cut, rfl⟩⟩
      cases scans with
      | other plain _ => exact absurd rfl plain
      | mention named _ => exact absurd named (nameless _ _)

/-- Changing the letters in names changes nothing else in the cut. -/
theorem Respelled.cutAlike {text respelled : List Char}
    (texts : Respelled changed text respelled) (fragment : List Char) :
    CutAlike changed (split fragment text) (split fragment respelled) := by
  induction texts generalizing fragment with
  | done =>
      rw [split]
      exact .inl ⟨_, _, rfl, rfl, CutAlike.flush .nil fragment⟩
  | other plain _ ih =>
      rw [split_other plain, split_other plain]
      exact ih _
  | braced valid same allowed _ ih =>
      exact CutAlike.mention (.braced valid)
        (.braced (isName_of_sameLetters valid same)) same allowed (ih [])
        fragment
  | bare word same allowed later ih =>
      exact CutAlike.mention (.bare word) (.bare (word.respelled same later))
        same allowed (ih []) fragment
  | nameless nameless =>
      obtain ⟨fault, cut⟩ := split_nameless nameless fragment
      exact .inr ⟨fault, cut, cut⟩

end Script

section Segments

variable {changed : String → String → Prop}

/-- Values of related segments are the same if those of related variables
are. -/
theorem Segment.map_value?_eq {value otherValue : String → Option String}
    {parts others : List Segment}
    (alike : List.Forall₂ (Segment.Respelled changed) parts others)
    (values : ∀ name spelled,
      Text.lowerAscii name = Text.lowerAscii spelled → changed name spelled →
        otherValue spelled = value name) :
    others.map (Segment.value? otherValue) =
      parts.map (Segment.value? value) := by
  induction alike with
  | nil => rfl
  | cons here _ ih =>
      rw [List.map_cons, List.map_cons, ih]
      cases here with
      | literal text => rfl
      | mention same allowed =>
          rw [Segment.value?, Segment.value?, values _ _ same allowed]

theorem Script.Respelled.segments_cases {text respelled : String}
    (texts : Respelled changed text.toList respelled.toList) :
    (∃ parts others, segments text = .ok parts ∧
      segments respelled = .ok others ∧
      List.Forall₂ (Segment.Respelled changed) parts others) ∨
    ∃ fault, segments text = .error ⟨fault, text⟩ ∧
      segments respelled = .error ⟨fault, respelled⟩ := by
  unfold segments
  rcases texts.cutAlike [] with ⟨parts, others, cut, otherCut, alike⟩ |
    ⟨fault, cut, otherCut⟩
  · exact .inl ⟨parts, others, by rw [cut], by rw [otherCut], alike⟩
  · exact .inr ⟨fault, by rw [cut], by rw [otherCut]⟩

end Segments

end ProxyLint
