import ProxyLint.Proofs.Hosts.Target

/-!
# The parts of an extracted target

Every target that is accepted has a scheme, a host and a port of known forms,
and they stand in it in this order.  The same scheme and port around another
host make a target again.
-/

namespace ProxyLint

namespace ProxyTarget

/-- A bracketed host, whatever address it holds. -/
def IsBracketedHost (host : List Char) : Prop :=
  ∃ inside, host = '[' :: (inside ++ [']']) ∧
    ∀ character ∈ inside, isBracketedCharacter character = true

/-- A host that ends before the first character that no host contains. -/
def IsPlainHost (host : List Char) : Prop :=
  host ≠ [] ∧ ∀ character ∈ host, endsHost character = false

def IsScheme (scheme : List Char) : Prop :=
  ∃ first later, scheme = first :: later ∧ isSchemeStart first = true ∧
    ∀ character ∈ later, isSchemeCharacter character = true

def IsPort (port : List Char) : Prop :=
  port ≠ [] ∧ ∀ digit ∈ port, digit.isDigit = true

/-- The scheme of a target with its mark. -/
def schemeText (target : ProxyTarget) : List Char :=
  match target.scheme with
  | none => []
  | some scheme => scheme.toList ++ [':', '/', '/']

/-- The port of a target behind its colon. -/
def portText (target : ProxyTarget) : List Char :=
  match target.port with
  | none => []
  | some port => ':' :: port.toList

/-- The parts of a target have their forms and stand in a text in order. -/
structure CutFrom (text : List Char) (target : ProxyTarget) : Prop where
  whole : ∃ rest, text = target.schemeText ++ (target.host.toList ++ rest) ∧
    target.port = String.ofList <$> portAt? rest
  scheme_form : ∀ scheme ∈ target.scheme, IsScheme scheme.toList
  host_form : IsBracketedHost target.host.toList ∨
    IsPlainHost target.host.toList

theorem bracketedHost?_cases {text host rest : List Char}
    (found : bracketedHost? text = some (host, rest)) :
    text = host ++ rest ∧ IsBracketedHost host := by
  unfold bracketedHost? at found
  split at found
  next later =>
    dsimp only at found
    split at found
    next after dropped =>
      split at found
      next => cases found
      next =>
        cases found
        refine ⟨?_, _, rfl, List.all_eq_true.1 List.all_takeWhile⟩
        rw [List.cons_append, List.append_assoc, List.singleton_append,
          ← dropped, List.takeWhile_append_dropWhile]
    next => cases found
  next => cases found

theorem hostAt?_cases {text host rest : List Char}
    (found : hostAt? text = some (host, rest)) :
    text = host ++ rest ∧ (IsBracketedHost host ∨ IsPlainHost host) := by
  unfold hostAt? at found
  split at found
  next parts bracketed =>
    obtain rfl := Option.some.inj found
    obtain ⟨whole, form⟩ := bracketedHost?_cases bracketed
    exact ⟨whole, .inl form⟩
  next =>
    dsimp only at found
    split at found
    next => cases found
    next nonempty =>
      cases found
      refine ⟨List.takeWhile_append_dropWhile.symm, .inr ⟨?_, ?_⟩⟩
      · simpa using nonempty
      · intro character member
        have inside := List.all_eq_true.1 List.all_takeWhile character member
        simpa using inside

theorem portAt?_cases {text digits : List Char}
    (found : portAt? text = some digits) : IsPort digits := by
  unfold portAt? at found
  split at found
  next rest =>
    dsimp only at found
    split at found
    next => cases found
    next nonempty =>
      cases found
      exact ⟨by simpa using nonempty, List.all_eq_true.1 List.all_takeWhile⟩
  next => cases found

theorem schemeAt?_cases {text scheme rest : List Char}
    (found : schemeAt? text = some (scheme, rest)) :
    text = scheme ++ ':' :: '/' :: '/' :: rest ∧ IsScheme scheme := by
  obtain ⟨whole, inside⟩ := eq_of_schemeAt? found
  refine ⟨whole, ?_⟩
  have starts : text.head?.any isSchemeStart = true := by
    unfold schemeAt? at found
    split at found
    next starts => exact starts
    next => cases found
  rw [whole] at starts
  cases scheme with
  | nil =>
      rw [List.nil_append, List.head?_cons] at starts
      exact absurd starts (by decide)
  | cons first later =>
      exact ⟨first, later, rfl, starts, fun character member =>
        inside character (List.mem_cons_of_mem _ member)⟩

theorem cutFrom_of_withoutScheme? {text : List Char} {target : ProxyTarget}
    (found : withoutScheme? text = some target) :
    target.scheme = none ∧ CutFrom text target := by
  unfold withoutScheme? at found
  obtain ⟨⟨host, rest⟩, hostFound, made⟩ := Option.bind_eq_some_iff.1 found
  obtain rfl := Option.some.inj made
  obtain ⟨whole, form⟩ := hostAt?_cases hostFound
  refine ⟨rfl, ⟨rest, ?_, rfl⟩, ?_, ?_⟩
  · rw [String.toList_ofList]
    exact whole
  · rintro scheme ⟨⟩
  · rwa [String.toList_ofList]

theorem cutFrom_of_ofCharacters? {text : List Char} {target : ProxyTarget}
    (found : ofCharacters? text = some target) : CutFrom text target := by
  unfold ofCharacters? at found
  split at found
  next => exact (cutFrom_of_withoutScheme? found).2
  next scheme rest marked =>
    obtain ⟨split, schemeForm⟩ := schemeAt?_cases marked
    split at found
    next inner read =>
      obtain rfl := Option.some.inj found
      obtain ⟨unschemed, cut⟩ := cutFrom_of_withoutScheme? read
      obtain ⟨after, whole, port⟩ := cut.whole
      refine ⟨⟨after, ?_, port⟩, ?_, cut.host_form⟩
      · rw [schemeText, unschemed] at whole
        simp [schemeText, split, whole]
      · intro name named
        obtain rfl := Option.some.inj named
        rwa [String.toList_ofList]
    next => exact (cutFrom_of_withoutScheme? found).2

/-- Whatever an accepted target looks like, its parts have their forms. -/
theorem cutFrom_of_extract {raw : String} {target : ProxyTarget}
    (extracted : extract raw = .ok target) :
    CutFrom raw.toList target ∧ ¬ "unix:".toList <:+: raw.toList := by
  unfold extract at extracted
  split at extracted
  next => cases extracted
  next unmentioned =>
    rw [Text.occurs_iff_infix] at unmentioned
    split at extracted
    next found read =>
      obtain rfl := Except.ok.inj extracted
      exact ⟨cutFrom_of_ofCharacters? read, unmentioned⟩
    next => cases extracted

namespace CutFrom

variable {text : List Char} {target : ProxyTarget}

theorem port_form (cut : CutFrom text target) :
    ∀ port ∈ target.port, IsPort port.toList := by
  obtain ⟨rest, _, same⟩ := cut.whole
  intro port given
  rw [same] at given
  obtain ⟨digits, found, rfl⟩ := Option.map_eq_some_iff.1 given
  rw [String.toList_ofList]
  exact portAt?_cases found

theorem host_subset (cut : CutFrom text target) :
    target.host.toList ⊆ text := by
  obtain ⟨rest, rfl, _⟩ := cut.whole
  intro character member
  exact List.mem_append_right _ (List.mem_append_left _ member)

theorem host_nonempty (cut : CutFrom text target) : target.host ≠ "" := by
  intro empty
  rcases cut.host_form with ⟨inside, same, _⟩ | ⟨nonempty, _⟩
  · rw [empty] at same
    cases same
  · exact nonempty (by rw [empty]; rfl)

/-- A colon in a host stands between brackets. -/
theorem getLast?_of_colon (cut : CutFrom text target)
    (colon : ':' ∈ target.host.toList) :
    target.host.toList.getLast? = some ']' := by
  rcases cut.host_form with ⟨inside, same, _⟩ | ⟨_, plain⟩
  · rw [same, ← List.cons_append, List.getLast?_concat]
  · exact absurd (plain ':' colon) (by decide)

end CutFrom

/-- A target with its host in the variable that findings suggest. -/
def withVariable (target : ProxyTarget) : ProxyTarget :=
  { target with host := "$backend" }

/-- The text of a target whose host is the suggested variable. -/
def variableText (target : ProxyTarget) : List Char :=
  target.schemeText ++ ("$backend".toList ++ target.portText)

namespace CutFrom

variable {text : List Char} {target : ProxyTarget}

theorem colon_not_mem_port (cut : CutFrom text target) :
    ∀ port ∈ target.port, ':' ∉ port.toList := by
  intro port given member
  exact absurd ((cut.port_form port given).2 ':' member) (by decide)

theorem colon_not_mem_scheme (cut : CutFrom text target) :
    ∀ scheme ∈ target.scheme, ':' ∉ scheme.toList := by
  intro scheme given member
  obtain ⟨first, later, same, starts, inside⟩ := cut.scheme_form scheme given
  rw [same] at member
  rcases List.mem_cons.1 member with rfl | member
  · exact absurd starts (by decide)
  · exact absurd (inside ':' member) (by decide)

/-- No Unix socket is mentioned in front of a port. -/
theorem not_infix_portText (cut : CutFrom text target) {front : List Char}
    (absent : ':' ∉ front) (other : ¬ "unix".toList <:+ front) :
    ¬ "unix".toList ++ [':'] <:+: front ++ target.portText := by
  intro mentioned
  rw [portText] at mentioned
  split at mentioned
  next =>
    rw [List.append_nil] at mentioned
    exact absent (mentioned.subset (by decide))
  next port given =>
    rcases Text.suffix_or_infix_of_infix (by decide) absent mentioned with
      ends | inside
    · exact other ends
    · exact cut.colon_not_mem_port port given (inside.subset (by decide))

/-- The scheme does not end as a Unix socket begins, because it is followed by
a colon in the text as well. -/
theorem not_infix_variableText (cut : CutFrom text target)
    (network : ¬ "unix:".toList <:+: text) :
    ¬ "unix:".toList <:+: target.variableText := by
  have mark : "unix:".toList = "unix".toList ++ [':'] := by decide
  rw [mark] at network ⊢
  intro mentioned
  rw [variableText, schemeText] at mentioned
  split at mentioned
  next => exact cut.not_infix_portText (by decide) (by decide) mentioned
  next scheme given =>
    rw [List.append_assoc] at mentioned
    rcases Text.suffix_or_infix_of_infix (by decide)
      (cut.colon_not_mem_scheme scheme given) mentioned with ends | inside
    · obtain ⟨rest, whole, _⟩ := cut.whole
      obtain ⟨before, same⟩ := ends
      apply network
      rw [whole, schemeText, given]
      exact ⟨before, '/' :: '/' :: (target.host.toList ++ rest), by
        simp [← same]⟩
    · have slashed : "unix".toList ++ [':'] <:+:
          "//$backend".toList ++ target.portText := inside
      exact cut.not_infix_portText (by decide) (by decide) slashed

theorem withoutScheme?_variable (cut : CutFrom text target) :
    withoutScheme? ("$backend".toList ++ target.portText) =
      some { target.withVariable with scheme := none } := by
  have stops : ∀ character ∈ target.portText.head?,
      endsHost character = true := by
    intro character first
    rw [portText] at first
    split at first
    next => cases first
    next =>
      obtain rfl := Option.some.inj first
      decide
  have port : portAt? target.portText =
      target.port.map String.toList := by
    rw [portText]
    split
    next absent =>
      rw [absent]
      rfl
    next port given =>
      obtain ⟨nonempty, digits⟩ := cut.port_form port given
      have found : portAt? (':' :: (port.toList ++ [])) = some port.toList :=
        portAt?_append nonempty digits (by simp)
      rw [List.append_nil] at found
      rw [found, given]
      rfl
  have host : hostAt? ("$backend".toList ++ target.portText) =
      some ("$backend".toList, target.portText) :=
    hostAt?_append (by decide) (by decide) (by simp [endsHost]) stops
  rw [withoutScheme?, host]
  simp [port, withVariable, Function.comp_def]

/-- Reading the target with the variable gives back its parts. -/
theorem extract_variableText (cut : CutFrom text target)
    (network : ¬ "unix:".toList <:+: text) :
    extract (String.ofList target.variableText) = .ok target.withVariable := by
  have unmentioned : Text.occurs ['u', 'n', 'i', 'x', ':']
      target.variableText = false := by
    rw [← Bool.not_eq_true, Text.occurs_iff_infix]
    exact cut.not_infix_variableText network
  have bare := cut.withoutScheme?_variable
  have read : ofCharacters? target.variableText =
      some target.withVariable := by
    cases given : target.scheme with
    | none =>
        have unschemed : schemeAt? ("$backend".toList ++ target.portText) =
            none := rfl
        rw [variableText, schemeText, given, List.nil_append, ofCharacters?,
          unschemed, bare]
        simp [withVariable, given]
    | some scheme =>
        obtain ⟨first, later, same, starts, inside⟩ :=
          cut.scheme_form scheme given
        have found := schemeAt?_append starts inside
          ("$backend".toList ++ target.portText)
        have parts : target.variableText = first :: later ++
            ':' :: '/' :: '/' :: ("$backend".toList ++ target.portText) := by
          simp [variableText, schemeText, given, same]
        rw [parts, ofCharacters?, found]
        simp only [bare, ← same, String.ofList_toList]
        simp [withVariable, given]
  rw [extract, String.toList_ofList, unmentioned, read]
  rfl

end CutFrom

end ProxyTarget

end ProxyLint
