import ProxyLint.Hosts.CloudEndpoint
import ProxyLint.Proofs.Text.Search

/-!
# What cloud patterns match

A pattern matches a host if the host has a part that fits the parts of the
pattern one after the other.  Letter case does not matter, and the provider of
a host is the one of the first pattern that matches.
-/

namespace ProxyLint

namespace PatternPart

def accepts : PatternPart → Char → Bool
  | .letter value => isVariantOf value
  | .letters => isLetter
  | .digits => Text.isDecimalDigit

/-- Whether a part fits a whole run of characters. -/
def repeats : PatternPart → Bool
  | .letter _ => false
  | .letters | .digits => true

/-- The texts that fit the parts of a pattern. -/
inductive Fits : List PatternPart → List Char → Prop where
  | done : Fits [] []
  | last {part : PatternPart} {parts : List PatternPart} {character : Char}
      {rest : List Char} (accepted : part.accepts character = true)
      (later : Fits parts rest) : Fits (part :: parts) (character :: rest)
  | more {part : PatternPart} {parts : List PatternPart} {character : Char}
      {rest : List Char} (accepted : part.accepts character = true)
      (again : part.repeats = true) (later : Fits (part :: parts) rest) :
      Fits (part :: parts) (character :: rest)

theorem matchesAt_nil_right (atEnd : Bool) (part : PatternPart)
    (parts : List PatternPart) :
    matchesAt atEnd (part :: parts) [] = false := by
  cases part <;> rfl

theorem matchesAt_cons (atEnd : Bool) (part : PatternPart)
    (parts : List PatternPart) (character : Char) (rest : List Char) :
    matchesAt atEnd (part :: parts) (character :: rest) =
      (part.accepts character && (matchesAt atEnd parts rest ||
        part.repeats && matchesAt atEnd (part :: parts) rest)) := by
  cases part with
  | letter value => simp [matchesAt, accepts, repeats]
  | letters => simp [matchesAt, accepts, repeats]
  | digits => simp [matchesAt, accepts, repeats]

theorem matchesAt_nil_left (atEnd : Bool) (text : List Char) :
    matchesAt atEnd [] text = (!atEnd || text.isEmpty) := by
  cases text <;> rfl

theorem matchesAt_iff {atEnd : Bool} {parts : List PatternPart}
    {text : List Char} :
    matchesAt atEnd parts text = true ↔
      ∃ fitting after, text = fitting ++ after ∧ Fits parts fitting ∧
        (atEnd = true → after = []) := by
  induction text generalizing parts with
  | nil =>
      cases parts with
      | nil =>
          rw [matchesAt_nil_left]
          constructor
          · intro _
            exact ⟨[], [], rfl, .done, fun _ => rfl⟩
          · intro _
            simp
      | cons part parts =>
          rw [matchesAt_nil_right]
          constructor
          · intro impossible
            cases impossible
          · rintro ⟨fitting, after, split, fits, _⟩
            obtain ⟨rfl, _⟩ := List.append_eq_nil_iff.1 split.symm
            cases fits
  | cons character rest ih =>
      cases parts with
      | nil =>
          rw [matchesAt_nil_left]
          constructor
          · intro anywhere
            exact ⟨[], character :: rest, rfl, .done, by simpa using anywhere⟩
          · rintro ⟨fitting, after, split, fits, ends⟩
            cases fits
            cases atEnd with
            | false => rfl
            | true => simp [ends rfl] at split
      | cons part parts =>
          rw [matchesAt_cons, Bool.and_eq_true, Bool.or_eq_true,
            Bool.and_eq_true, ih, ih]
          constructor
          · rintro ⟨accepted, ⟨fitting, after, rfl, fits, ends⟩ |
              ⟨again, fitting, after, rfl, fits, ends⟩⟩
            · exact ⟨character :: fitting, after, rfl, .last accepted fits,
                ends⟩
            · exact ⟨character :: fitting, after, rfl,
                .more accepted again fits, ends⟩
          · rintro ⟨fitting, after, split, fits, ends⟩
            cases fits with
            | last accepted later =>
                obtain ⟨rfl, rfl⟩ := List.cons.inj split
                exact ⟨accepted, .inl ⟨_, after, rfl, later, ends⟩⟩
            | more accepted again later =>
                obtain ⟨rfl, rfl⟩ := List.cons.inj split
                exact ⟨accepted, .inr ⟨again, _, after, rfl, later, ends⟩⟩

theorem accepts_toLower (part : PatternPart) (character : Char) :
    part.accepts character.toLower = part.accepts character := by
  have longS : (character.toLower = 'ſ') = (character = 'ſ') :=
    propext (Text.toLower_eq_iff (by decide))
  have kelvin : (character.toLower = '\u212A') = (character = '\u212A') :=
    propext (Text.toLower_eq_iff (by decide))
  cases part with
  | letter value =>
      simp only [accepts, isVariantOf, Text.toLower_toLower, longS, kelvin]
  | letters =>
      simp only [accepts, isLetter, Text.isAlpha_toLower, longS, kelvin]
  | digits => exact Text.isDecimalDigit_toLower character

theorem matchesAt_map_toLower (atEnd : Bool) (parts : List PatternPart)
    (text : List Char) :
    matchesAt atEnd parts (text.map Char.toLower) =
      matchesAt atEnd parts text := by
  induction text generalizing parts with
  | nil => rfl
  | cons character rest ih =>
      cases parts with
      | nil => simp [matchesAt_nil_left]
      | cons part parts =>
          rw [List.map_cons, matchesAt_cons, matchesAt_cons, accepts_toLower,
            ih, ih]

end PatternPart

namespace CloudPattern

/-- A part of the host fits the pattern, the last part if the pattern has to
reach the end. -/
def MatchesIn (pattern : CloudPattern) (host : List Char) : Prop :=
  ∃ before fitting after, host = before ++ (fitting ++ after) ∧
    PatternPart.Fits pattern.parts fitting ∧
      (pattern.atEnd = true → after = [])

theorem occursIn_iff {pattern : CloudPattern} {host : List Char} :
    pattern.occursIn host = true ↔ pattern.MatchesIn host := by
  induction host with
  | nil =>
      rw [occursIn, PatternPart.matchesAt_iff]
      constructor
      · rintro ⟨fitting, after, split, fits, ends⟩
        exact ⟨[], fitting, after, split, fits, ends⟩
      · rintro ⟨before, fitting, after, split, fits, ends⟩
        obtain ⟨_, empty⟩ := List.append_eq_nil_iff.1 split.symm
        exact ⟨fitting, after, empty.symm, fits, ends⟩
  | cons character rest ih =>
      rw [occursIn, Bool.or_eq_true, PatternPart.matchesAt_iff, ih]
      constructor
      · rintro (⟨fitting, after, split, fits, ends⟩ |
          ⟨before, fitting, after, rfl, fits, ends⟩)
        · exact ⟨[], fitting, after, split, fits, ends⟩
        · exact ⟨character :: before, fitting, after, rfl, fits, ends⟩
      · rintro ⟨before, fitting, after, split, fits, ends⟩
        cases before with
        | nil => exact .inl ⟨fitting, after, split, fits, ends⟩
        | cons first before =>
            obtain ⟨rfl, rfl⟩ := List.cons.inj split
            exact .inr ⟨before, fitting, after, rfl, fits, ends⟩

theorem occursIn_map_toLower (pattern : CloudPattern) (host : List Char) :
    pattern.occursIn (host.map Char.toLower) = pattern.occursIn host := by
  induction host with
  | nil => rfl
  | cons character rest ih =>
      have matched := PatternPart.matchesAt_map_toLower pattern.atEnd
        pattern.parts (character :: rest)
      rw [List.map_cons] at matched ⊢
      rw [occursIn, occursIn, ih, matched]

/-- The pattern is the first one that matches the host. -/
def IsFirstMatch (pattern : CloudPattern) (host : List Char) : Prop :=
  ∃ earlier later, providers ++ services = earlier ++ pattern :: later ∧
    pattern.MatchesIn host ∧ ∀ other ∈ earlier, ¬ other.MatchesIn host

end CloudPattern

open CloudPattern

theorem cloudProvider?_map_toLower (host : List Char) :
    cloudProvider? (host.map Char.toLower) = cloudProvider? host := by
  simp only [cloudProvider?, occursIn_map_toLower]

theorem cloudProvider?_eq_some_iff {host : List Char} {provider : String} :
    cloudProvider? host = some provider ↔
      ∃ pattern : CloudPattern,
        pattern.IsFirstMatch host ∧ pattern.provider = provider := by
  rw [cloudProvider?, Option.map_eq_some_iff]
  refine exists_congr fun pattern => and_congr_left fun _ => ?_
  rw [List.find?_eq_some_iff_append]
  constructor
  · rintro ⟨occurs, earlier, later, split, passed⟩
    refine ⟨earlier, later, split, occursIn_iff.1 occurs, ?_⟩
    intro other member found
    simpa [occursIn_iff.2 found] using passed other member
  · rintro ⟨earlier, later, split, found, passed⟩
    refine ⟨occursIn_iff.2 found, earlier, later, split, ?_⟩
    intro other member
    have absent := passed other member
    rw [← occursIn_iff] at absent
    simpa using absent

theorem cloudProvider?_eq_none_iff {host : List Char} :
    cloudProvider? host = none ↔
      ∀ pattern ∈ providers ++ services, ¬ pattern.MatchesIn host := by
  rw [cloudProvider?, Option.map_eq_none_iff, List.find?_eq_none]
  simp only [occursIn_iff]

end ProxyLint
