import ProxyLint.Proofs.Hosts.Extraction
import ProxyLint.Proofs.Hosts.VersionSix

/-!
# Targets that are written with an address

An address of version four stands in a target as it is, and one of version six
in brackets.  Whatever scheme precedes it and whatever port, path or variables
follow it, the target is cut right behind the address, because every character
of its text may stand there.
-/

namespace ProxyLint

namespace Host

/-- An address as a target has it. -/
inductive IsTargetAddress : List Char → Prop where
  | versionFour {address : List Char} (quad : IsDottedQuad address) :
      IsTargetAddress address
  | versionSix {address : List Char} (form : IsVersionSixText address) :
      IsTargetAddress ('[' :: (address ++ [']']))

theorem IsTargetAddress.isAddressText {host : List Char}
    (form : IsTargetAddress host) : IsAddressText host := by
  cases form with
  | versionFour quad => exact .versionFour quad
  | versionSix form => exact .bracketed form

theorem IsDottedQuad.mem_cases {text : List Char} (quad : IsDottedQuad text) :
    ∀ character ∈ text, character = '.' ∨ character.isDigit = true := by
  obtain ⟨a, _, b, _, c, _, d, _, rfl⟩ := quad
  intro character member
  simp only [List.mem_append, List.mem_cons] at member
  rcases member with digit | dot | digit | dot | digit | dot | digit
  · exact .inr (Text.isDigit_of_mem_toDigits digit)
  · exact .inl dot
  · exact .inr (Text.isDigit_of_mem_toDigits digit)
  · exact .inl dot
  · exact .inr (Text.isDigit_of_mem_toDigits digit)
  · exact .inl dot
  · exact .inr (Text.isDigit_of_mem_toDigits digit)

theorem forall_mem_colonJoined {accepts : Char → Prop} (colon : accepts ':')
    {texts : List (List Char)}
    (inside : ∀ text ∈ texts, ∀ character ∈ text, accepts character) :
    ∀ character ∈ colonJoined texts, accepts character := by
  induction texts with
  | nil => simp [colonJoined]
  | cons text others ih =>
      obtain ⟨insideText, insideOthers⟩ := List.forall_mem_cons.1 inside
      cases others with
      | nil =>
          rw [colonJoined, List.intercalate_singleton]
          exact insideText
      | cons next later =>
          intro character member
          rw [colonJoined, List.intercalate_cons_cons, List.append_assoc,
            List.mem_append] at member
          rcases member with member | member
          · exact insideText character member
          · rcases List.mem_cons.1 member with rfl | member
            · exact colon
            · exact ih insideOthers character member

theorem IsHexGroup.isBracketed {text : List Char}
    (hexadecimal : IsHexGroup text) : ∀ character ∈ text,
      ProxyTarget.isBracketedCharacter character = true := by
  intro character member
  have digit := hexadecimal.2.2 character member
  simp only [isHexDigit, Bool.or_eq_true] at digit
  simp only [ProxyTarget.isBracketedCharacter, Bool.or_eq_true]
  exact .inl (.inl digit)

theorem IsDottedQuad.isBracketed {text : List Char}
    (quad : IsDottedQuad text) : ∀ character ∈ text,
      ProxyTarget.isBracketedCharacter character = true := by
  intro character member
  rcases quad.mem_cases character member with rfl | digit
  · decide
  · simp [ProxyTarget.isBracketedCharacter, digit]

theorem StandFor.isBracketed {texts : List (List Char)} {count : Nat}
    (stand : StandFor texts count) : ∀ text ∈ texts, ∀ character ∈ text,
      ProxyTarget.isBracketedCharacter character = true := by
  induction stand with
  | nothing => simp
  | dotted quad => simpa using quad.isBracketed
  | group hexadecimal _ ih =>
      exact List.forall_mem_cons.2 ⟨hexadecimal.isBracketed, ih⟩

/-- Brackets may hold every text of an address of version six. -/
theorem IsVersionSixText.isBracketed {text : List Char}
    (form : IsVersionSixText text) : ∀ character ∈ text,
      ProxyTarget.isBracketedCharacter character = true := by
  cases form with
  | full eight => exact forall_mem_colonJoined (by decide) eight.isBracketed
  | compressed plain counted _ =>
      have inBefore := forall_mem_colonJoined
        (show ProxyTarget.isBracketedCharacter ':' = true by decide)
        fun text listed => (plain text listed).isBracketed
      have inAfter := forall_mem_colonJoined
        (show ProxyTarget.isBracketedCharacter ':' = true by decide)
        counted.isBracketed
      intro character member
      rcases List.mem_append.1 member with member | member
      · exact inBefore character member
      · simp only [List.mem_cons] at member
        rcases member with rfl | rfl | member
        · decide
        · decide
        · exact inAfter character member

/-- No variable is part of an address. -/
theorem IsTargetAddress.dollar_not_mem {host : List Char}
    (form : IsTargetAddress host) : '$' ∉ host := by
  intro dollar
  cases form with
  | versionFour quad =>
      rcases quad.mem_cases '$' dollar with dot | digit
      · exact absurd dot (by decide)
      · exact absurd digit (by decide)
  | versionSix form =>
      simp only [List.mem_cons, List.mem_append, List.not_mem_nil,
        or_false] at dollar
      rcases dollar with opening | inside | closing
      · exact absurd opening (by decide)
      · exact absurd (form.isBracketed '$' inside) (by decide)
      · exact absurd closing (by decide)

/-- An address starts with a bracket or a digit, and not as a scheme does. -/
theorem IsTargetAddress.exists_cons {host : List Char}
    (form : IsTargetAddress host) : ∃ first later, host = first :: later ∧
      ProxyTarget.isSchemeStart first = false := by
  cases form with
  | versionFour quad =>
      obtain ⟨first, later, rfl, digit⟩ := quad.exists_cons
      refine ⟨first, later, rfl, ?_⟩
      have most : first.toNat ≤ 57 := (Char.isDigit_iff_toNat.1 digit).2
      rw [ProxyTarget.isSchemeStart, Bool.and_eq_false_iff]
      left
      rw [decide_eq_false_iff_not, Char.le_def, UInt32.le_iff_toNat_le]
      have least : 'a'.val.toNat = 97 := rfl
      change ¬ 'a'.val.toNat ≤ first.toNat
      omega
  | versionSix form => exact ⟨'[', _, rfl, by decide⟩

end Host

/-- The parts of a target whose host is an address, in the order in which they
are written.  The colon of a port need not be followed by digits. -/
structure AddressTarget where
  scheme : Option (List Char)
  address : List Char
  port : Option (List Char)
  /-- A path, a query or a fragment. -/
  rest : List Char
  scheme_form : ∀ name ∈ scheme, ProxyTarget.IsScheme name
  address_form : Host.IsTargetAddress address
  port_digits : ∀ digits ∈ port, ∀ digit ∈ digits, digit.isDigit = true
  rest_starts : ∀ character ∈ rest.head?, character ∈ ['/', '?', '#']

namespace AddressTarget

/-- What follows the address. -/
def tail (written : AddressTarget) : List Char :=
  match written.port with
  | none => written.rest
  | some digits => ':' :: (digits ++ written.rest)

def characters (written : AddressTarget) : List Char :=
  match written.scheme with
  | none => written.address ++ written.tail
  | some name => name ++ ':' :: '/' :: '/' :: (written.address ++ written.tail)

end AddressTarget

namespace ProxyTarget

theorem bracketedHost?_append {inside : List Char} (nonempty : inside ≠ [])
    (bracketed : ∀ character ∈ inside, isBracketedCharacter character = true)
    (after : List Char) :
    bracketedHost? ('[' :: (inside ++ ']' :: after)) =
      some ('[' :: (inside ++ [']']), after) := by
  have stops : ∀ character ∈ (']' :: after).head?,
      isBracketedCharacter character = false := by
    intro character closing
    obtain rfl := Option.some.inj closing
    decide
  obtain ⟨taken, dropped⟩ := Text.run_of_append bracketed stops
  simp only [bracketedHost?, taken, dropped]
  simp [nonempty]

/-- An address is cut off where it ends. -/
theorem hostAt?_address {host after : List Char}
    (form : Host.IsTargetAddress host)
    (stops : ∀ character ∈ after.head?, endsHost character = true) :
    hostAt? (host ++ after) = some (host, after) := by
  cases form with
  | versionFour quad =>
      obtain ⟨first, later, same, _⟩ := quad.exists_cons
      have nonempty : host ≠ [] := by
        rw [same]
        exact List.cons_ne_nil first later
      have unbracketed : host.head? ≠ some '[' := by
        simpa using quad.head?_ne []
      have inside : ∀ character ∈ host, endsHost character = false := by
        intro character member
        rcases quad.mem_cases character member with rfl | digit
        · decide
        · exact endsHost_of_isSchemeCharacter (by
            simp [isSchemeCharacter, digit])
      exact hostAt?_append nonempty unbracketed inside stops
  | @versionSix address form =>
      obtain ⟨first, later, same, _⟩ := form.exists_cons
      have nonempty : address ≠ [] := by
        rw [same]
        exact List.cons_ne_nil first later
      have found := bracketedHost?_append nonempty form.isBracketed
        after
      have parts : '[' :: (address ++ [']']) ++ after =
          '[' :: (address ++ ']' :: after) := by simp
      rw [parts, hostAt?, found]

/-- A scheme starts with a small letter. -/
theorem schemeAt?_eq_none_of_head? {text : List Char}
    (start : text.head?.any isSchemeStart = false) : schemeAt? text = none := by
  rw [schemeAt?, start]
  rfl

end ProxyTarget

namespace AddressTarget

open ProxyTarget

theorem endsHost_of_mem_tail_head? (written : AddressTarget) :
    ∀ character ∈ written.tail.head?, endsHost character = true := by
  intro character first
  unfold tail at first
  split at first
  next =>
    have listed := written.rest_starts character first
    exact endsHost_iff.2 (List.mem_append_left [':'] listed)
  next =>
    obtain rfl := Option.some.inj first
    decide

theorem withoutScheme?_eq (written : AddressTarget) :
    withoutScheme? (written.address ++ written.tail) = some {
      scheme := none
      host := String.ofList written.address
      port := String.ofList <$> portAt? written.tail } := by
  rw [withoutScheme?, hostAt?_address written.address_form
    written.endsHost_of_mem_tail_head?]
  rfl

/-- Reading the target finds the address as its host. -/
theorem exists_ofCharacters? (written : AddressTarget) :
    ∃ target, ofCharacters? written.characters = some target ∧
      target.host = String.ofList written.address := by
  have bare := written.withoutScheme?_eq
  unfold characters
  split
  next =>
    obtain ⟨first, later, same, start⟩ := written.address_form.exists_cons
    have unschemed : schemeAt? (written.address ++ written.tail) = none := by
      apply schemeAt?_eq_none_of_head?
      rw [same, List.cons_append, List.head?_cons, Option.any_some, start]
    rw [ofCharacters?, unschemed, bare]
    exact ⟨_, rfl, rfl⟩
  next name given =>
    obtain ⟨first, later, rfl, starts, inside⟩ :=
      written.scheme_form name given
    rw [List.cons_append, ← List.cons_append, ofCharacters?,
      schemeAt?_append starts inside]
    simp only [bare]
    exact ⟨_, rfl, rfl⟩

/-- The target is cut behind the address, unless it mentions a Unix socket. -/
theorem extract_cases (written : AddressTarget) :
    extract (String.ofList written.characters) = .error .unixSocket ∨
      ∃ target, extract (String.ofList written.characters) = .ok target ∧
        target.host = String.ofList written.address := by
  obtain ⟨target, read, host⟩ := written.exists_ofCharacters?
  unfold extract
  split
  next => exact .inl rfl
  next =>
    rw [String.toList_ofList, read]
    exact .inr ⟨target, rfl, host⟩

end AddressTarget

end ProxyLint
