import ProxyLint.Hosts.Target
import ProxyLint.Proofs.Text.Search

/-!
# Written targets

A target with a host name is written from its parts in one way only.  The
host ends at the first character that ends hosts, whatever scheme stands
before it and whatever port or path follows it.
-/

namespace ProxyLint

/-- The parts of a target in the order in which they are written. -/
structure WrittenTarget where
  scheme : Option (List Char)
  host : List Char
  port : Option (List Char)
  /-- A path, a query or a fragment. -/
  rest : List Char
  scheme_form : ∀ name ∈ scheme, ∃ first later, name = first :: later ∧
    ('a' ≤ first ∧ first ≤ 'z') ∧ ∀ character ∈ later,
      ('a' ≤ character ∧ character ≤ 'z') ∨ character.isDigit = true ∨
        character ∈ ['+', '.', '-']
  host_nonempty : host ≠ []
  host_plain : ∀ character ∈ host, character ∉ ['/', '?', '#', ':', '$']
  host_unbracketed : host.head? ≠ some '['
  port_digits : ∀ digits ∈ port,
    digits ≠ [] ∧ ∀ digit ∈ digits, digit.isDigit = true
  rest_starts : ∀ character ∈ rest.head?, character ∈ ['/', '?', '#']

namespace WrittenTarget

def schemeText (written : WrittenTarget) : List Char :=
  match written.scheme with
  | none => []
  | some name => name ++ [':', '/', '/']

def portText (written : WrittenTarget) : List Char :=
  match written.port with
  | none => []
  | some digits => ':' :: digits

def characters (written : WrittenTarget) : List Char :=
  written.schemeText ++
    (written.host ++ (written.portText ++ written.rest))

def hostName (written : WrittenTarget) : String :=
  String.ofList written.host

/-- The target without its rest, which is never looked at. -/
def target (written : WrittenTarget) : ProxyTarget where
  scheme := written.scheme.map String.ofList
  host := written.hostName
  port := written.port.map String.ofList

end WrittenTarget

namespace ProxyTarget

theorem endsHost_iff {character : Char} :
    endsHost character = true ↔ character ∈ ['/', '?', '#', ':'] := by
  simp [endsHost, or_assoc]

theorem endsHost_of_isSchemeCharacter {character : Char}
    (inScheme : isSchemeCharacter character = true) :
    endsHost character = false := by
  cases ends : endsHost character with
  | false => rfl
  | true =>
      have listed := endsHost_iff.1 ends
      simp only [List.mem_cons, List.not_mem_nil, or_false] at listed
      rcases listed with rfl | rfl | rfl | rfl <;>
        exact absurd inScheme (by decide)

theorem bracketedHost?_eq_none {text : List Char}
    (unbracketed : text.head? ≠ some '[') : bracketedHost? text = none := by
  unfold bracketedHost?
  split
  · simp at unbracketed
  · rfl

/-- A host is cut off where the first character that ends hosts stands. -/
theorem cut_at_endsHost {host after : List Char}
    (inside : ∀ character ∈ host, endsHost character = false)
    (stops : ∀ character ∈ after.head?, endsHost character = true) :
    (host ++ after).takeWhile (fun character => !endsHost character) = host ∧
      (host ++ after).dropWhile (fun character => !endsHost character) =
        after := by
  apply Text.run_of_append
  · simpa using inside
  · simpa using stops

theorem hostAt?_append {host after : List Char} (nonempty : host ≠ [])
    (unbracketed : host.head? ≠ some '[')
    (inside : ∀ character ∈ host, endsHost character = false)
    (stops : ∀ character ∈ after.head?, endsHost character = true) :
    hostAt? (host ++ after) = some (host, after) := by
  have start : (host ++ after).head? ≠ some '[' := by
    cases host with
    | nil => exact absurd rfl nonempty
    | cons first later => exact unbracketed
  obtain ⟨taken, dropped⟩ := cut_at_endsHost inside stops
  rw [hostAt?, bracketedHost?_eq_none start]
  simp only [taken, dropped]
  simp [nonempty]

theorem schemeAt?_append {first : Char} {later : List Char}
    (starts : isSchemeStart first = true)
    (inside : ∀ character ∈ later, isSchemeCharacter character = true)
    (rest : List Char) :
    schemeAt? (first :: later ++ ':' :: '/' :: '/' :: rest) =
      some (first :: later, rest) := by
  have insideAll : ∀ character ∈ first :: later,
      isSchemeCharacter character = true := by
    intro character member
    rcases List.mem_cons.1 member with rfl | member
    · simp [isSchemeCharacter, starts]
    · exact inside character member
  have stops : ∀ character ∈ (':' :: '/' :: '/' :: rest).head?,
      isSchemeCharacter character = false := by
    intro character colon
    obtain rfl := Option.some.inj colon
    decide
  obtain ⟨taken, dropped⟩ := Text.run_of_append insideAll stops
  rw [schemeAt?, dropped, taken]
  simp [starts]

/-- A scheme that is found stands before its mark. -/
theorem eq_of_schemeAt? {text scheme rest : List Char}
    (found : schemeAt? text = some (scheme, rest)) :
    text = scheme ++ ':' :: '/' :: '/' :: rest ∧
      ∀ character ∈ scheme, isSchemeCharacter character = true := by
  unfold schemeAt? at found
  split at found
  next starts =>
    split at found
    next after dropped =>
      cases found
      refine ⟨?_, List.all_eq_true.1 List.all_takeWhile⟩
      rw [← dropped, List.takeWhile_append_dropWhile]
    next => cases found
  next => cases found

/-- A text whose host is followed by no mark has no scheme. -/
theorem schemeAt?_eq_none {host after : List Char}
    (inside : ∀ character ∈ host, endsHost character = false)
    (stops : ∀ character ∈ after.head?, endsHost character = true)
    (unmarked : ∀ rest, after ≠ ':' :: '/' :: rest) :
    schemeAt? (host ++ after) = none := by
  cases found : schemeAt? (host ++ after) with
  | none => rfl
  | some parts =>
      obtain ⟨cut, inScheme⟩ := eq_of_schemeAt? found
      have schemeInside : ∀ character ∈ parts.1,
          endsHost character = false := fun character member =>
        endsHost_of_isSchemeCharacter (inScheme character member)
      have mark : ∀ character ∈ (':' :: '/' :: '/' :: parts.2).head?,
          endsHost character = true := by
        intro character colon
        obtain rfl := Option.some.inj colon
        decide
      -- Both the host and the scheme end where the first mark stands.
      have dropped := (cut_at_endsHost inside stops).2
      rw [cut, (cut_at_endsHost schemeInside mark).2] at dropped
      exact absurd dropped.symm (unmarked _)

theorem portAt?_rest {rest : List Char}
    (starts : ∀ character ∈ rest.head?, character ≠ ':') :
    portAt? rest = none := by
  cases rest with
  | nil => rfl
  | cons character later =>
      rw [portAt?]
      intro later colon
      exact starts character rfl (List.cons.inj colon).1

theorem portAt?_append {digits rest : List Char} (nonempty : digits ≠ [])
    (inside : ∀ digit ∈ digits, digit.isDigit = true)
    (stops : ∀ character ∈ rest.head?, character.isDigit = false) :
    portAt? (':' :: (digits ++ rest)) = some digits := by
  rw [portAt?, (Text.run_of_append inside stops).1]
  simp [nonempty]

end ProxyTarget

namespace WrittenTarget

open ProxyTarget

theorem endsHost_of_mem_host (written : WrittenTarget) :
    ∀ character ∈ written.host, endsHost character = false := by
  intro character member
  have plain := written.host_plain character member
  cases ends : endsHost character with
  | false => rfl
  | true =>
      have listed := endsHost_iff.1 ends
      exact absurd (List.mem_append_left ['$'] listed) plain

theorem endsHost_of_mem_head? (written : WrittenTarget) :
    ∀ character ∈ (written.portText ++ written.rest).head?,
      endsHost character = true := by
  intro character first
  unfold portText at first
  split at first
  next =>
    have listed := written.rest_starts character first
    exact endsHost_iff.2 (List.mem_append_left [':'] listed)
  next digits held =>
    obtain rfl := Option.some.inj first
    decide

/-- The colon before a port is followed by a digit. -/
theorem after_host_ne_mark (written : WrittenTarget) (later : List Char) :
    written.portText ++ written.rest ≠ ':' :: '/' :: later := by
  intro marked
  unfold portText at marked
  split at marked
  next =>
    have listed := written.rest_starts ':' (by
      rw [List.nil_append] at marked
      rw [marked]
      rfl)
    simp at listed
  next digits held =>
    obtain ⟨nonempty, inside⟩ := written.port_digits digits held
    cases digits with
    | nil => exact nonempty rfl
    | cons digit others =>
        obtain ⟨_, same⟩ := List.cons.inj marked
        obtain ⟨rfl, _⟩ := List.cons.inj same
        have slash := inside '/' List.mem_cons_self
        simp at slash

theorem portAt?_eq (written : WrittenTarget) :
    portAt? (written.portText ++ written.rest) = written.port := by
  unfold portText
  split
  next absent =>
    rw [absent, List.nil_append]
    apply portAt?_rest
    rintro character first rfl
    have listed := written.rest_starts ':' first
    simp at listed
  next digits held =>
    obtain ⟨nonempty, inside⟩ := written.port_digits digits held
    rw [held]
    apply portAt?_append nonempty inside
    intro character first
    have listed := written.rest_starts character first
    simp only [List.mem_cons, List.not_mem_nil, or_false] at listed
    rcases listed with rfl | rfl | rfl <;> decide

theorem withoutScheme?_eq (written : WrittenTarget) :
    withoutScheme? (written.host ++ (written.portText ++ written.rest)) =
      some { written.target with scheme := none } := by
  have found := hostAt?_append written.host_nonempty
    written.host_unbracketed written.endsHost_of_mem_host
    written.endsHost_of_mem_head?
  rw [withoutScheme?, found]
  simp only [Option.bind_eq_bind, Option.bind_some, portAt?_eq]
  rfl

/-- Reading a written target gives back its parts. -/
theorem ofCharacters?_eq (written : WrittenTarget) :
    ofCharacters? written.characters = some written.target := by
  have bare := written.withoutScheme?_eq
  cases scheme : written.scheme with
  | none =>
      have unschemed := schemeAt?_eq_none written.endsHost_of_mem_host
        written.endsHost_of_mem_head? written.after_host_ne_mark
      have characters_eq : written.characters =
          written.host ++ (written.portText ++ written.rest) := by
        simp [characters, schemeText, scheme]
      rw [characters_eq, ofCharacters?, unschemed, bare]
      simp [target, scheme]
  | some name =>
      obtain ⟨first, later, rfl, starts, inside⟩ :=
        written.scheme_form name scheme
      have schemeStarts : isSchemeStart first = true := by
        simpa [isSchemeStart] using starts
      have inScheme : ∀ character ∈ later,
          isSchemeCharacter character = true := by
        intro character member
        have listed := inside character member
        simpa [isSchemeCharacter, isSchemeStart, or_assoc] using listed
      have found := schemeAt?_append schemeStarts inScheme
        (written.host ++ (written.portText ++ written.rest))
      have characters_eq : written.characters = first :: later ++
          ':' :: '/' :: '/' ::
            (written.host ++ (written.portText ++ written.rest)) := by
        simp [characters, schemeText, scheme]
      rw [characters_eq, ofCharacters?, found]
      simp [bare, target, scheme]

/-- A written target that mentions no Unix socket is cut into its parts. -/
theorem extract_eq (written : WrittenTarget)
    (network : ¬ "unix:".toList <:+: written.characters) :
    extract (String.ofList written.characters) = .ok written.target := by
  have unmentioned : Text.occurs ['u', 'n', 'i', 'x', ':']
      written.characters = false := by
    rw [← Bool.not_eq_true, Text.occurs_iff_infix]
    exact network
  rw [extract, String.toList_ofList, unmentioned, ofCharacters?_eq]
  rfl

end WrittenTarget

end ProxyLint
