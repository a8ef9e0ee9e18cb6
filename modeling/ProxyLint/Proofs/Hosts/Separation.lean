import ProxyLint.Hosts.Suffix
import ProxyLint.Proofs.Hosts.CloudEndpoint

/-!
# Patterns that never match the same host

Two patterns that have to reach the end of a host can be compared part by part
from their ends.  If they come to parts that no character fits both of, however
long their runs are taken, no host ends in both ways.
-/

namespace ProxyLint

namespace PatternPart

/-- The small letter that a character is a case variant of, or the character
itself. -/
def smallForm (character : Char) : Char :=
  if character = 'ſ' then 's'
  else if character = '\u212A' then 'k'
  else character.toLower

/-- Whether it is clear that no character fits both parts. -/
def excludes : PatternPart → PatternPart → Bool
  | .letter value, .letter other => smallForm value != smallForm other
  | .letter value, .letters | .letters, .letter value => !isLetter value
  | .letter value, .digits | .digits, .letter value =>
      !Text.isDecimalDigit value
  | .letters, .digits | .digits, .letters => true
  | .letters, .letters | .digits, .digits => false

/-- Compare a part with the parts of another pattern, if it is known how the
parts behind it compare with them. -/
def apartFrom (part : PatternPart) (later : List PatternPart → Bool) :
    List PatternPart → Bool
  | [] => false
  | other :: others =>
      part.excludes other ||
        (later others && (!other.repeats || later (other :: others)) &&
          (!part.repeats || apartFrom part later others))

/-- Whether no text begins with both lists of parts, as far as this can be seen
from one part after the other. -/
def apart : List PatternPart → List PatternPart → Bool
  | [], _ => false
  | part :: parts, others => apartFrom part (apart parts) others

theorem smallForm_eq_of_isVariantOf {value character : Char}
    (variant : isVariantOf value character = true) :
    smallForm character = smallForm value := by
  simp only [isVariantOf, Bool.or_eq_true, Bool.and_eq_true,
    decide_eq_true_eq] at variant
  rcases variant with (rfl | ⟨rfl, rfl⟩) | ⟨rfl, rfl⟩
  · have longS : (character.toLower = 'ſ') = (character = 'ſ') :=
      propext (Text.toLower_eq_iff (by decide))
    have kelvin : (character.toLower = '\u212A') = (character = '\u212A') :=
      propext (Text.toLower_eq_iff (by decide))
    simp only [smallForm, longS, kelvin, Text.toLower_toLower]
  · rfl
  · rfl

theorem isLetter_of_isVariantOf {value character : Char}
    (variant : isVariantOf value character = true)
    (letter : isLetter character = true) : isLetter value = true := by
  simp only [isVariantOf, Bool.or_eq_true, Bool.and_eq_true,
    decide_eq_true_eq] at variant
  rcases variant with (rfl | ⟨rfl, rfl⟩) | ⟨rfl, rfl⟩
  · exact (accepts_toLower .letters character).trans letter
  · rfl
  · rfl

theorem isDecimalDigit_of_isVariantOf {value character : Char}
    (variant : isVariantOf value character = true)
    (digit : Text.isDecimalDigit character = true) :
    Text.isDecimalDigit value = true := by
  simp only [isVariantOf, Bool.or_eq_true, Bool.and_eq_true,
    decide_eq_true_eq] at variant
  rcases variant with (rfl | ⟨rfl, rfl⟩) | ⟨rfl, rfl⟩
  · exact (accepts_toLower .digits character).trans digit
  · exact absurd digit (by decide +kernel)
  · exact absurd digit (by decide +kernel)

/-- No letter is a digit of any script. -/
theorem isDecimalDigit_of_isLetter {character : Char}
    (letter : isLetter character = true) :
    Text.isDecimalDigit character = false := by
  simp only [isLetter, Bool.or_eq_true, decide_eq_true_eq] at letter
  rcases letter with (plain | rfl) | rfl
  · have bound : character.toNat < 123 := by
      change character.val.toNat < 123
      rcases Bool.or_eq_true_iff.1 plain with upper | lower
      · have bounds : 'A'.val ≤ character.val ∧ character.val ≤ 'Z'.val :=
          of_decide_eq_true upper
        have most : character.val.toNat ≤ 90 := bounds.2
        omega
      · have bounds := Bool.and_eq_true_iff.1 lower
        have most : character.val.toNat ≤ 122 := of_decide_eq_true bounds.2
        omega
    have all : ∀ code < 123, (Char.ofNat code).isAlpha = true →
        Text.isDecimalDigit (Char.ofNat code) = false := by decide +kernel
    rw [← Char.ofNat_toNat character] at plain ⊢
    exact all _ bound plain
  · decide +kernel
  · decide +kernel

theorem accepts_eq_false_of_excludes {part other : PatternPart}
    (excluded : part.excludes other = true) {character : Char}
    (accepted : part.accepts character = true) :
    other.accepts character = false := by
  rw [← Bool.not_eq_true]
  intro again
  cases part with
  | letter value =>
      cases other with
      | letter another =>
          have same := (smallForm_eq_of_isVariantOf accepted).symm.trans
            (smallForm_eq_of_isVariantOf again)
          simp [excludes, same] at excluded
      | letters =>
          simp [excludes, isLetter_of_isVariantOf accepted again] at excluded
      | digits =>
          simp [excludes,
            isDecimalDigit_of_isVariantOf accepted again] at excluded
  | letters =>
      cases other with
      | letter value =>
          simp [excludes, isLetter_of_isVariantOf again accepted] at excluded
      | letters => simp [excludes] at excluded
      | digits =>
          exact absurd again (by
            simp [accepts, isDecimalDigit_of_isLetter accepted])
  | digits =>
      cases other with
      | letter value =>
          simp [excludes,
            isDecimalDigit_of_isVariantOf again accepted] at excluded
      | letters =>
          exact absurd accepted (by
            simp [accepts, isDecimalDigit_of_isLetter again])
      | digits => simp [excludes] at excluded

theorem apart_cons_cons {part other : PatternPart}
    {parts others : List PatternPart}
    (separate : apart (part :: parts) (other :: others) = true) :
    part.excludes other = true ∨ (apart parts others = true ∧
      (other.repeats = true → apart parts (other :: others) = true) ∧
        (part.repeats = true → apart (part :: parts) others = true)) := by
  simp only [apart, apartFrom, Bool.or_eq_true, Bool.and_eq_true,
    Bool.not_eq_true'] at separate ⊢
  refine separate.imp_right fun ⟨⟨both, second⟩, first⟩ => ⟨both, ?_, ?_⟩
  · intro repeats
    exact second.resolve_left (by simp [repeats])
  · intro repeats
    exact first.resolve_left (by simp [repeats])

/-- No text begins with both of two lists of parts that are apart. -/
theorem matchesAt_eq_false_of_apart {parts others : List PatternPart}
    (separate : apart parts others = true) {text : List Char}
    (matched : matchesAt false parts text = true) :
    matchesAt false others text = false := by
  induction text generalizing parts others with
  | nil =>
      cases parts with
      | nil => simp [apart] at separate
      | cons part parts => simp [matchesAt_nil_right] at matched
  | cons character rest ih =>
      cases parts with
      | nil => simp [apart] at separate
      | cons part parts =>
          cases others with
          | nil => simp [apart, apartFrom] at separate
          | cons other others =>
              rw [matchesAt_cons, Bool.and_eq_true, Bool.or_eq_true,
                Bool.and_eq_true] at matched
              rw [matchesAt_cons, ← Bool.not_eq_true, Bool.and_eq_true,
                Bool.or_eq_true, Bool.and_eq_true]
              rintro ⟨again, otherGoesOn⟩
              obtain ⟨accepted, goesOn⟩ := matched
              rcases apart_cons_cons separate with excluded |
                ⟨bothEnd, otherRuns, partRuns⟩
              · rw [accepts_eq_false_of_excludes excluded accepted] at again
                cases again
              -- Either run may end here or go on.  If both go on, nothing has
              -- changed but the text.
              · rcases goesOn with ended | ⟨repeats, continued⟩
                · rcases otherGoesOn with stopped | ⟨recurs, persisted⟩
                  · rw [ih bothEnd ended] at stopped
                    cases stopped
                  · rw [ih (otherRuns recurs) ended] at persisted
                    cases persisted
                · rcases otherGoesOn with stopped | ⟨_, persisted⟩
                  · rw [ih (partRuns repeats) continued] at stopped
                    cases stopped
                  · rw [ih separate continued] at persisted
                    cases persisted

theorem Fits.concat {parts : List PatternPart} {text : List Char}
    (fits : Fits parts text) {part : PatternPart} {character : Char}
    (accepted : part.accepts character = true) :
    Fits (parts ++ [part]) (text ++ [character]) := by
  induction fits with
  | done => exact .last accepted .done
  | last inner _ ih => exact .last inner ih
  | more inner again _ ih => exact .more inner again ih

/-- A run at the end may go on. -/
theorem Fits.extend {parts : List PatternPart} {part : PatternPart}
    {text : List Char} (fits : Fits (parts ++ [part]) text)
    (repeats : part.repeats = true) {character : Char}
    (accepted : part.accepts character = true) :
    Fits (parts ++ [part]) (text ++ [character]) := by
  generalize whole : parts ++ [part] = all at fits
  induction fits generalizing parts with
  | done => simp at whole
  | last inner later ih =>
      cases parts with
      | nil =>
          obtain ⟨rfl, rfl⟩ := List.cons.inj whole
          cases later
          exact .more inner repeats (.last accepted .done)
      | cons first others =>
          obtain ⟨rfl, rfl⟩ := List.cons.inj whole
          exact .last inner (ih rfl)
  | more inner again _ ih => exact .more inner again (ih whole)

/-- What fits the parts fits them backwards as well. -/
theorem Fits.reverse {parts : List PatternPart} {text : List Char}
    (fits : Fits parts text) : Fits parts.reverse text.reverse := by
  induction fits with
  | done => exact .done
  | last accepted _ ih =>
      rw [List.reverse_cons, List.reverse_cons]
      exact ih.concat accepted
  | more accepted again _ ih =>
      rw [List.reverse_cons] at ih ⊢
      rw [List.reverse_cons]
      exact ih.extend again accepted

/-- Whether a text may not end in the ways of both lists of parts. -/
def apartAtEnd (parts others : List PatternPart) : Bool :=
  apart parts.reverse others.reverse

theorem not_fits_of_apartAtEnd {parts others : List PatternPart}
    (separate : apartAtEnd parts others = true)
    {before fitting otherBefore otherFitting : List Char}
    (fits : Fits parts fitting) (otherFits : Fits others otherFitting) :
    before ++ fitting ≠ otherBefore ++ otherFitting := by
  intro same
  have matched : matchesAt false parts.reverse (before ++ fitting).reverse =
      true := by
    rw [matchesAt_iff, List.reverse_append]
    exact ⟨_, _, rfl, fits.reverse, by simp⟩
  have otherMatched : matchesAt false others.reverse
      (otherBefore ++ otherFitting).reverse = true := by
    rw [matchesAt_iff, List.reverse_append]
    exact ⟨_, _, rfl, otherFits.reverse, by simp⟩
  have never := matchesAt_eq_false_of_apart separate matched
  rw [same, otherMatched] at never
  cases never

theorem fits_map_letter {text : List Char}
    (small : text.map Char.toLower = text) :
    Fits (text.map .letter) text := by
  induction text with
  | nil => exact .done
  | cons character rest ih =>
      obtain ⟨first, later⟩ := List.cons.inj small
      exact .last (by simp [accepts, isVariantOf, first]) (ih later)

end PatternPart

end ProxyLint
