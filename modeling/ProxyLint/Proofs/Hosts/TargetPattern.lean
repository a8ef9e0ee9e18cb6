import ProxyLint.Proofs.Hosts.Extraction
import ProxyLint.Proofs.Text.Pattern

/-!
# The pattern of a target

A target is an optional scheme with its mark, a host and an optional port.  A
host in brackets is preferred to one without.  Cutting a target into its parts
finds the first way in which this pattern matches, also where a scheme is tried
in vain because no host follows it.
-/

namespace ProxyLint

/-- The parts of a target that its pattern sets apart. -/
inductive TargetPart where
  | scheme
  | host
  | port
deriving DecidableEq, Repr

namespace TargetPattern

open CharacterClass TextPattern

def schemeStart : CharacterClass :=
  ⟨[('a', 'z')], false⟩

def schemeLater : CharacterClass :=
  ⟨[('a', 'z'), ('0', '9'), ('+', '+'), ('.', '.'), ('-', '-')], false⟩

def bracketed : CharacterClass :=
  ⟨[('0', '9'), ('a', 'f'), ('A', 'F'), (':', ':'), ('.', '.')], false⟩

def inHost : CharacterClass :=
  ⟨[('/', '/'), ('?', '?'), ('#', '#'), (':', ':')], true⟩

def digit : CharacterClass :=
  ⟨[('0', '9')], false⟩

/-- The pattern `[a-z][a-z0-9+.-]*`. -/
def schemeName : TextPattern TargetPart :=
  group .scheme (sequence (one schemeStart) (optionally (run schemeLater)))

def schemeMark : TextPattern TargetPart :=
  sequence schemeName (literally [':', '/', '/'])

/-- The pattern `\[[0-9a-fA-F:.]+\]`. -/
def bracketedHost : TextPattern TargetPart :=
  sequence (one (.only '[')) (sequence (run bracketed) (one (.only ']')))

/-- The pattern `[^/?#:]+`, unless the host stands in brackets. -/
def hostName : TextPattern TargetPart :=
  group .host (choice bracketedHost (run inHost))

/-- The pattern `[0-9]+` behind a colon. -/
def portMark : TextPattern TargetPart :=
  sequence (one (.only ':')) (group .port (run digit))

def hostAndPort : TextPattern TargetPart :=
  sequence hostName (optionally portMark)

def target : TextPattern TargetPart :=
  sequence (optionally schemeMark) hostAndPort

/-- The target whose parts are the groups of a match. -/
def target? (found : TextMatch TargetPart) : Option ProxyTarget :=
  (found.part? .host).map fun host =>
    ⟨found.part? .scheme, host, found.part? .port⟩

@[simp]
theorem accepts_schemeStart :
    schemeStart.accepts = ProxyTarget.isSchemeStart := by
  funext character
  simp [accepts, schemeStart, ProxyTarget.isSchemeStart]

@[simp]
theorem accepts_schemeLater :
    schemeLater.accepts = ProxyTarget.isSchemeCharacter := by
  funext character
  simp [accepts, schemeLater, ProxyTarget.isSchemeCharacter,
    ProxyTarget.isSchemeStart, between_same, isDigit_eq_between, Bool.or_assoc]

@[simp]
theorem accepts_bracketed :
    bracketed.accepts = ProxyTarget.isBracketedCharacter := by
  funext character
  simp [accepts, bracketed, ProxyTarget.isBracketedCharacter, between_same,
    isDigit_eq_between, Bool.or_assoc]

@[simp]
theorem accepts_inHost :
    inHost.accepts = fun character => !ProxyTarget.endsHost character := by
  funext character
  simp [accepts, inHost, ProxyTarget.endsHost, between_same, Bool.or_assoc]

@[simp]
theorem accepts_digit : digit.accepts = Char.isDigit := by
  funext character
  simp [accepts, digit, isDigit_eq_between]

/-- The mark stands where a character that continues a scheme does not. -/
theorem ways_mark_eq_nil {text : List Char}
    (continued : ∃ character ∈ text.head?,
      ProxyTarget.isSchemeCharacter character = true) :
    (literally [':', '/', '/'] : TextPattern TargetPart).ways text = [] := by
  apply ways_literally_eq_nil
  rintro ⟨rest, rfl⟩
  obtain ⟨character, first, accepted⟩ := continued
  obtain rfl := Option.some.inj first
  exact absurd accepted (by decide)

/-- The name of a scheme is tried at its full length first. -/
theorem exists_ways_schemeName {first : Char} (rest : List Char)
    (starts : ProxyTarget.isSchemeStart first = true) :
    ∃ shorter, schemeName.ways (first :: rest) =
        ⟨(first :: rest).takeWhile ProxyTarget.isSchemeCharacter,
          [(.scheme,
            (first :: rest).takeWhile ProxyTarget.isSchemeCharacter)],
          (first :: rest).dropWhile ProxyTarget.isSchemeCharacter⟩ ::
          shorter ∧
      ∀ found ∈ shorter, ∃ character ∈ found.rest.head?,
        ProxyTarget.isSchemeCharacter character = true := by
  have accepted : ProxyTarget.isSchemeCharacter first = true := by
    simp [ProxyTarget.isSchemeCharacter, starts]
  obtain ⟨shorter, listed, continued⟩ :=
    @exists_ways_optionally_run TargetPart schemeLater rest
  rw [accepts_schemeLater] at listed continued
  refine ⟨_, by simp [schemeName, ways, starts, listed, accepted,
    TextMatch.inGroup, TextMatch.followedBy]; rfl, ?_⟩
  intro found member
  obtain ⟨inner, present, rfl⟩ := List.mem_map.1 member
  exact continued inner present

/-- A scheme and its mark match in one way at most. -/
theorem ways_schemeMark (text : List Char) :
    schemeMark.ways text =
      (ProxyTarget.schemeAt? text).toList.map fun found =>
        ⟨found.1 ++ [':', '/', '/'], [(.scheme, found.1)], found.2⟩ := by
  cases text with
  | nil => rfl
  | cons first rest =>
      cases starts : ProxyTarget.isSchemeStart first with
      | false =>
          simp [schemeMark, schemeName, ways, starts, ProxyTarget.schemeAt?]
      | true =>
          obtain ⟨shorter, listed, continued⟩ :=
            exists_ways_schemeName rest starts
          rw [schemeMark, ways_sequence_of_decided listed fun other member =>
            ways_mark_eq_nil (continued other member)]
          by_cases marked : [':', '/', '/'] <+:
              (first :: rest).dropWhile ProxyTarget.isSchemeCharacter
          · obtain ⟨after, dropped⟩ := marked
            have found : ProxyTarget.schemeAt? (first :: rest) = some
                ((first :: rest).takeWhile ProxyTarget.isSchemeCharacter,
                  after) := by
              rw [ProxyTarget.schemeAt?, ← dropped]
              simp [starts]
            rw [found, ← dropped, ways_literally_append]
            rfl
          · have absent : ProxyTarget.schemeAt? (first :: rest) = none := by
              rw [ProxyTarget.schemeAt?]
              split
              · split
                next after dropped =>
                  exact absurd ⟨after, dropped.symm⟩ marked
                next => rfl
              · rfl
            rw [absent, ways_literally_eq_nil marked]
            rfl

/-- The closing bracket stands where a character of an address does not. -/
theorem ways_closing_eq_nil {text : List Char}
    (continued : ∃ character ∈ text.head?,
      ProxyTarget.isBracketedCharacter character = true) :
    (one (.only ']') : TextPattern TargetPart).ways text = [] := by
  obtain ⟨character, first, accepted⟩ := continued
  cases text with
  | nil => cases first
  | cons other rest =>
      obtain rfl := Option.some.inj first
      have different : other ≠ ']' := by
        rintro rfl
        exact absurd accepted (by decide)
      simp [ways, different]

/-- A host in brackets matches in one way at most. -/
theorem ways_bracketedHost (text : List Char) :
    bracketedHost.ways text =
      (ProxyTarget.bracketedHost? text).toList.map fun found =>
        ⟨found.1, [], found.2⟩ := by
  unfold ProxyTarget.bracketedHost?
  split
  next rest =>
    have opened : bracketedHost.ways ('[' :: rest) =
        ((sequence (run bracketed) (one (.only ']'))).ways rest).map
          (TextMatch.followedBy ⟨['['], [], rest⟩) := by
      simp [bracketedHost, ways]
    rw [opened]
    by_cases stops : rest.takeWhile ProxyTarget.isBracketedCharacter = []
    · have listed : (run bracketed : TextPattern TargetPart).ways rest = [] :=
        ways_run_eq_nil (by rw [accepts_bracketed, stops])
      rw [ways, listed]
      simp only [stops]
      split <;> rfl
    · obtain ⟨shorter, listed, continued⟩ :=
        @exists_ways_run TargetPart bracketed rest
          (by rwa [accepts_bracketed])
      rw [accepts_bracketed] at listed continued
      rw [ways_sequence_of_decided listed fun other member =>
        ways_closing_eq_nil (continued other member)]
      cases dropped : rest.dropWhile ProxyTarget.isBracketedCharacter with
      | nil => rfl
      | cons character after =>
          by_cases closes : character = ']'
          · simp [ways, closes, stops, TextMatch.followedBy]
          · simp [ways, closes]
  next unopened =>
    cases text with
    | nil => rfl
    | cons first rest =>
        have different : first ≠ '[' := by
          rintro rfl
          exact unopened rest rfl
        simp [bracketedHost, ways, different]

theorem first?_hostName (text : List Char) :
    hostName.first? text =
      (ProxyTarget.hostAt? text).map fun found =>
        ⟨found.1, [(.host, found.1)], found.2⟩ := by
  have bracketed : bracketedHost.first? text =
      (ProxyTarget.bracketedHost? text).map fun found =>
        ⟨found.1, [], found.2⟩ := by
    rw [first?, ways_bracketedHost, List.head?_map]
    cases ProxyTarget.bracketedHost? text <;> rfl
  rw [hostName, first?_group, first?_choice, bracketed, first?_run,
    accepts_inHost, ProxyTarget.hostAt?]
  cases ProxyTarget.bracketedHost? text with
  | some found => rfl
  | none =>
      simp only [Option.map_none, Option.none_or]
      split <;> rfl

/-- The port with its group, or nothing.  What follows is not looked at. -/
theorem exists_first?_optionally_portMark (text : List Char) :
    ∃ found, (optionally portMark).first? text = some found ∧
      found.groups = (ProxyTarget.portAt? text).toList.map fun digits =>
        (TargetPart.port, digits) := by
  rw [optionally, first?_choice]
  unfold ProxyTarget.portAt?
  split
  next rest =>
    have marked : portMark.first? (':' :: rest) = 
        ((group .port (run digit)).first? rest).map
          (TextMatch.followedBy ⟨[':'], [], rest⟩) := by
      simp [portMark, first?_sequence, ways]
    rw [marked, first?_group, first?_run, accepts_digit]
    by_cases stops : rest.takeWhile Char.isDigit = []
    · rw [stops]
      exact ⟨_, rfl, rfl⟩
    · simp only [List.isEmpty_iff, stops, if_false]
      exact ⟨_, rfl, rfl⟩
  next unmarked =>
    have absent : portMark.first? text = none := by
      cases text with
      | nil => rfl
      | cons first rest =>
          have different : first ≠ ':' := by
            rintro rfl
            exact unmarked rest rfl
          simp [portMark, first?_sequence, ways, different]
    rw [absent]
    exact ⟨_, rfl, rfl⟩

/-- A port never keeps the pattern from matching. -/
theorem first?_hostAndPort (text : List Char) :
    hostAndPort.first? text =
      (hostName.first? text).bind fun found =>
        ((optionally portMark).first? found.rest).map found.followedBy := by
  rw [hostAndPort, first?_sequence, first?]
  cases hostName.ways text with
  | nil => rfl
  | cons found others =>
      obtain ⟨port, first, _⟩ := exists_first?_optionally_portMark found.rest
      simp [first]

/-- Host and port are found together or not at all, and they are the same
whatever stands in front of them. -/
theorem first?_hostAndPort_cases (before : TextMatch TargetPart)
    (no_host : before.groups.lookup .host = none)
    (no_port : before.groups.lookup .port = none) (text : List Char) :
    (hostAndPort.first? text = none ∧
        ProxyTarget.withoutScheme? text = none) ∨
      ∃ found inner, hostAndPort.first? text = some found ∧
        ProxyTarget.withoutScheme? text = some inner ∧
        target? (before.followedBy found) =
          some { inner with scheme := before.part? .scheme } := by
  rw [first?_hostAndPort, first?_hostName, ProxyTarget.withoutScheme?]
  cases ProxyTarget.hostAt? text with
  | none => exact .inl ⟨rfl, rfl⟩
  | some cut =>
      obtain ⟨port, first, groups⟩ := exists_first?_optionally_portMark cut.2
      refine .inr ⟨TextMatch.followedBy ⟨cut.1, [(.host, cut.1)], cut.2⟩ port,
        _, by simp [first], rfl, ?_⟩
      have named : List.lookup TargetPart.scheme
          ((TargetPart.host, cut.1) :: port.groups) = none := by
        rw [groups]
        cases ProxyTarget.portAt? cut.2 <;> rfl
      have numbered : List.lookup TargetPart.port
          ((TargetPart.host, cut.1) :: port.groups) =
            ProxyTarget.portAt? cut.2 := by
        rw [groups]
        cases ProxyTarget.portAt? cut.2 <;> rfl
      simp [target?, TextMatch.part?, TextMatch.followedBy,
        List.lookup_append, no_host, no_port, named, numbered]

/-- Cutting a target finds the first way in which its pattern matches. -/
theorem ofCharacters?_eq_first? (text : List Char) :
    ProxyTarget.ofCharacters? text =
      (target.first? text).bind target? := by
  have bare : ProxyTarget.withoutScheme? text =
      ((hostAndPort.first? text).map
        (TextMatch.followedBy ⟨[], [], text⟩)).bind target? := by
    rcases first?_hostAndPort_cases ⟨[], [], text⟩ rfl rfl text with
      ⟨missing, absent⟩ | ⟨found, inner, first, read, same⟩
    · rw [missing, absent]
      rfl
    · have unschemed := (ProxyTarget.cutFrom_of_withoutScheme? read).1
      rw [first, read, Option.map_some, Option.bind_some, same]
      obtain ⟨scheme, host, port⟩ := inner
      obtain rfl : scheme = none := unschemed
      rfl
  rw [target, first?_sequence, optionally, ways, ways_schemeMark,
    ProxyTarget.ofCharacters?]
  cases ProxyTarget.schemeAt? text with
  | none => simpa [ways] using bare
  | some marked =>
      rcases first?_hostAndPort_cases
        ⟨marked.1 ++ [':', '/', '/'], [(.scheme, marked.1)], marked.2⟩
        rfl rfl marked.2 with
        ⟨missing, absent⟩ | ⟨found, inner, first, read, same⟩
      · simpa [ways, missing, absent] using bare
      · simpa [ways, first, read, TextMatch.part?] using same.symm

end TargetPattern

end ProxyLint
