import ProxyLint.Proofs.Hosts.AddressTarget
import ProxyLint.Proofs.Hosts.TargetPattern

/-!
# The exact cut of a target

Every text is cut into scheme, host, port and rest in one way, which can be
told from the text.  A scheme counts only if a character that begins a host
follows its mark.  The host is the text in brackets if there is one, and
otherwise it goes on to the first character that no host contains.  The port is
all the digits behind a colon.
-/

namespace ProxyLint

namespace ProxyTarget

/-- Something that looks like an address, in brackets. -/
def IsBracketedText (host : List Char) : Prop :=
  ∃ inside, inside ≠ [] ∧ host = '[' :: (inside ++ [']']) ∧
    ∀ character ∈ inside, isBracketedCharacter character = true

/-- What is cut off as the host where a host begins, in front of what follows
it. -/
inductive HostCut : List Char → List Char → Prop where
  | bracketed {host after : List Char} (form : IsBracketedText host) :
      HostCut host after
  | plain {host after : List Char} (form : IsPlainHost host)
      (stops : ∀ character ∈ after.head?, endsHost character = true)
      (unbracketed : ∀ bracketed, IsBracketedText bracketed →
        ¬ bracketed <+: host ++ after) : HostCut host after

/-- What is cut off as the port behind a host, in front of the rest. -/
inductive PortCut : Option String → List Char → Prop where
  | present {port : String} {rest : List Char} (form : IsPort port.toList)
      (stops : ∀ character ∈ rest.head?, character.isDigit = false) :
      PortCut (some port) rest
  | absent {rest : List Char} (undigited : ∀ digit later,
      rest = ':' :: digit :: later → digit.isDigit = false) :
      PortCut none rest

/-- A text starts with a scheme whose mark is followed by a host. -/
def BeginsWithScheme (text scheme : List Char) : Prop :=
  IsScheme scheme ∧ ∃ first later,
    text = scheme ++ ':' :: '/' :: '/' :: first :: later ∧
      endsHost first = false

/-- A text is cut into the parts of a target and a rest. -/
structure IsCut (text : List Char) (target : ProxyTarget)
    (rest : List Char) : Prop where
  whole : text = target.schemeText ++
    (target.host.toList ++ (target.portText ++ rest))
  scheme_iff : ∀ scheme, target.scheme = some scheme ↔
    BeginsWithScheme text scheme.toList
  host_cut : HostCut target.host.toList (target.portText ++ rest)
  port_cut : PortCut target.port rest

theorem schemeAt?_eq_some_iff {text scheme rest : List Char} :
    schemeAt? text = some (scheme, rest) ↔
      IsScheme scheme ∧ text = scheme ++ ':' :: '/' :: '/' :: rest := by
  constructor
  · intro found
    exact (schemeAt?_cases found).symm
  · rintro ⟨⟨first, later, rfl, starts, inside⟩, rfl⟩
    exact schemeAt?_append starts inside rest

theorem endsHost_of_isScheme {scheme : List Char} (form : IsScheme scheme) :
    ∀ character ∈ scheme, endsHost character = false := by
  obtain ⟨first, later, rfl, starts, inside⟩ := form
  intro character member
  apply endsHost_of_isSchemeCharacter
  rcases List.mem_cons.1 member with rfl | member
  · simp [isSchemeCharacter, starts]
  · exact inside character member

theorem bracketedHost?_eq_some_iff {text host after : List Char} :
    bracketedHost? text = some (host, after) ↔
      text = host ++ after ∧ IsBracketedText host := by
  constructor
  · intro found
    unfold bracketedHost? at found
    split at found
    next later =>
      dsimp only at found
      split at found
      next closing dropped =>
        split at found
        next => cases found
        next nonempty =>
          cases found
          refine ⟨?_, _, by simpa using nonempty, rfl,
            List.all_eq_true.1 List.all_takeWhile⟩
          rw [List.cons_append, List.append_assoc, List.singleton_append,
            ← dropped, List.takeWhile_append_dropWhile]
      next => cases found
    next => cases found
  · rintro ⟨rfl, inside, nonempty, rfl, bracketed⟩
    have found := bracketedHost?_append nonempty bracketed after
    simpa using found

theorem bracketedHost?_eq_none_iff {text : List Char} :
    bracketedHost? text = none ↔
      ∀ bracketed, IsBracketedText bracketed → ¬ bracketed <+: text := by
  constructor
  · rintro absent bracketed form ⟨after, whole⟩
    have found := bracketedHost?_eq_some_iff.2 ⟨whole.symm, form⟩
    rw [absent] at found
    cases found
  · intro absent
    cases found : bracketedHost? text with
    | none => rfl
    | some cut =>
        obtain ⟨whole, form⟩ := bracketedHost?_eq_some_iff.1 found
        exact absurd ⟨cut.2, whole.symm⟩ (absent cut.1 form)

theorem hostAt?_eq_some_iff {text host after : List Char} :
    hostAt? text = some (host, after) ↔
      text = host ++ after ∧ HostCut host after := by
  constructor
  · intro found
    unfold hostAt? at found
    split at found
    next cut bracketed =>
      obtain rfl := Option.some.inj found
      obtain ⟨whole, form⟩ := bracketedHost?_eq_some_iff.1 bracketed
      exact ⟨whole, .bracketed form⟩
    next unbracketed =>
      dsimp only at found
      split at found
      next => cases found
      next nonempty =>
        cases found
        rw [bracketedHost?_eq_none_iff] at unbracketed
        refine ⟨List.takeWhile_append_dropWhile.symm,
          .plain ⟨by simpa using nonempty, ?_⟩ ?_ ?_⟩
        · intro character member
          simpa using List.mem_takeWhile_imp member
        · intro character first
          have stops := List.head?_dropWhile_not
            (fun character => !endsHost character) text
          rw [Option.mem_def.1 first] at stops
          simpa using stops
        · rwa [List.takeWhile_append_dropWhile]
  · rintro ⟨rfl, cut⟩
    cases cut with
    | bracketed form =>
        rw [hostAt?, bracketedHost?_eq_some_iff.2 ⟨rfl, form⟩]
    | plain form stops unbracketed =>
        obtain ⟨taken, dropped⟩ := cut_at_endsHost form.2 stops
        rw [hostAt?, bracketedHost?_eq_none_iff.2 unbracketed]
        simp only [taken, dropped]
        simp [form.1]

theorem HostCut.unique {host after other otherAfter : List Char}
    (cut : HostCut host after) (otherCut : HostCut other otherAfter)
    (same : host ++ after = other ++ otherAfter) :
    host = other ∧ after = otherAfter := by
  have found := hostAt?_eq_some_iff.2 ⟨rfl, cut⟩
  have again := hostAt?_eq_some_iff.2 ⟨same, otherCut⟩
  rw [found] at again
  exact Prod.mk.inj (Option.some.inj again)

/-- A host starts with a character that can stand in one. -/
theorem HostCut.exists_cons {host after : List Char}
    (cut : HostCut host after) :
    ∃ first later, host = first :: later ∧ endsHost first = false := by
  cases cut with
  | bracketed form =>
      obtain ⟨inside, _, rfl, _⟩ := form
      exact ⟨_, _, rfl, by decide⟩
  | plain form _ _ =>
      obtain ⟨first, later, rfl⟩ := List.exists_cons_of_ne_nil form.1
      exact ⟨first, later, rfl, form.2 first List.mem_cons_self⟩

theorem hostAt?_eq_none_iff {text : List Char} :
    hostAt? text = none ↔
      ∀ character ∈ text.head?, endsHost character = true := by
  cases text with
  | nil => simp [hostAt?, bracketedHost?]
  | cons first later =>
    simp only [List.head?_cons, Option.mem_def, Option.some.injEq, forall_eq']
    constructor
    · intro absent
      unfold hostAt? at absent
      split at absent
      next => cases absent
      next =>
        cases ends : endsHost first with
        | true => rfl
        | false => simp [ends] at absent
    · intro ends
      have unbracketed : (first :: later).head? ≠ some '[' := by
        rintro opened
        obtain rfl := Option.some.inj opened
        exact absurd ends (by decide)
      simp [hostAt?, bracketedHost?_eq_none unbracketed, ends]

theorem portAt?_of_portCut {target : ProxyTarget} {rest : List Char}
    (cut : PortCut target.port rest) :
    String.ofList <$> portAt? (target.portText ++ rest) = target.port := by
  unfold portText
  split
  next missing =>
    rw [missing] at cut ⊢
    cases cut with
    | absent undigited =>
        have unread : portAt? rest = none := by
          unfold portAt?
          split
          next later =>
            cases later with
            | nil => rfl
            | cons digit others => simp [undigited digit others rfl]
          next => rfl
        rw [List.nil_append, unread]
        rfl
  next port given =>
    rw [given] at cut ⊢
    cases cut with
    | present form stops =>
        rw [List.cons_append, portAt?_append form.1 form.2 stops]
        simp

theorem exists_portCut {target : ProxyTarget} {text : List Char}
    (read : target.port = String.ofList <$> portAt? text) :
    ∃ rest, text = target.portText ++ rest ∧ PortCut target.port rest := by
  unfold portText
  split
  next missing =>
    refine ⟨text, rfl, ?_⟩
    rw [missing] at read ⊢
    refine .absent fun digit later whole => ?_
    cases digital : digit.isDigit with
    | false => rfl
    | true => simp [whole, portAt?, digital] at read
  next port given =>
    rw [given] at read ⊢
    obtain ⟨digits, found, rfl⟩ := Option.map_eq_some_iff.1 read.symm
    have form := portAt?_cases found
    unfold portAt? at found
    split at found
    next later =>
      dsimp only at found
      split at found
      next => cases found
      next nonempty =>
        obtain rfl := Option.some.inj found
        refine ⟨later.dropWhile Char.isDigit, by simp, .present ?_ ?_⟩
        · rwa [String.toList_ofList]
        · intro character first
          have stops := List.head?_dropWhile_not Char.isDigit later
          rw [Option.mem_def.1 first] at stops
          simpa using stops
    next => cases found

theorem withoutScheme?_eq_some_iff {text : List Char}
    {target : ProxyTarget} :
    withoutScheme? text = some target ↔ target.scheme = none ∧ ∃ rest,
      text = target.host.toList ++ (target.portText ++ rest) ∧
        HostCut target.host.toList (target.portText ++ rest) ∧
          PortCut target.port rest := by
  constructor
  · intro found
    unfold withoutScheme? at found
    obtain ⟨⟨host, after⟩, hostFound, made⟩ := Option.bind_eq_some_iff.1 found
    obtain rfl := Option.some.inj made
    obtain ⟨whole, cut⟩ := hostAt?_eq_some_iff.1 hostFound
    obtain ⟨rest, split, port⟩ := @exists_portCut
      ⟨none, String.ofList host, String.ofList <$> portAt? after⟩ after rfl
    refine ⟨rfl, rest, ?_, ?_, port⟩
    · rw [← split, String.toList_ofList]
      exact whole
    · rwa [← split, String.toList_ofList]
  · rintro ⟨unschemed, rest, whole, host, port⟩
    have found := hostAt?_eq_some_iff.2 ⟨whole, host⟩
    have read := portAt?_of_portCut port
    obtain ⟨scheme, name, digits⟩ := target
    obtain rfl : scheme = none := unschemed
    rw [withoutScheme?, found]
    simpa using read

theorem withoutScheme?_eq_none_iff {text : List Char} :
    withoutScheme? text = none ↔
      ∀ character ∈ text.head?, endsHost character = true := by
  rw [← hostAt?_eq_none_iff, withoutScheme?]
  cases hostAt? text <;> simp

/-- A scheme counts if a host follows its mark. -/
theorem beginsWithScheme_iff {text scheme : List Char} :
    BeginsWithScheme text scheme ↔ ∃ rest,
      schemeAt? text = some (scheme, rest) ∧ withoutScheme? rest ≠ none := by
  constructor
  · rintro ⟨form, first, later, whole, begins⟩
    refine ⟨first :: later, schemeAt?_eq_some_iff.2 ⟨form, whole⟩, ?_⟩
    intro absent
    have ends := withoutScheme?_eq_none_iff.1 absent first rfl
    rw [begins] at ends
    cases ends
  · rintro ⟨rest, found, present⟩
    obtain ⟨form, whole⟩ := schemeAt?_eq_some_iff.1 found
    refine ⟨form, ?_⟩
    cases rest with
    | nil => exact absurd rfl present
    | cons first later =>
        refine ⟨first, later, whole, ?_⟩
        cases begins : endsHost first with
        | false => rfl
        | true =>
            exfalso
            apply present
            rw [withoutScheme?_eq_none_iff]
            rintro character same
            obtain rfl := Option.some.inj same
            exact begins

/-- The scheme of a text is cut off if it begins with one, and otherwise there
is none. -/
theorem ofCharacters?_cases (text : List Char) :
    (∃ scheme rest inner, schemeAt? text = some (scheme, rest) ∧
      withoutScheme? rest = some inner ∧ ofCharacters? text =
        some { inner with scheme := some (String.ofList scheme) }) ∨
      ((∀ scheme, ¬ BeginsWithScheme text scheme) ∧
        ofCharacters? text = withoutScheme? text) := by
  unfold ofCharacters?
  split
  next unmarked =>
    refine .inr ⟨fun scheme begins => ?_, rfl⟩
    obtain ⟨rest, found, _⟩ := beginsWithScheme_iff.1 begins
    rw [unmarked] at found
    cases found
  next scheme rest marked =>
    split
    next inner read => exact .inl ⟨scheme, rest, inner, marked, read, rfl⟩
    next absent =>
      refine .inr ⟨fun other begins => ?_, rfl⟩
      obtain ⟨_, found, present⟩ := beginsWithScheme_iff.1 begins
      rw [marked] at found
      cases found
      exact present absent

/-- Cutting a text finds the parts of a target exactly if they are cut off
where they should be. -/
theorem ofCharacters?_eq_some_iff {text : List Char} {target : ProxyTarget} :
    ofCharacters? text = some target ↔ ∃ rest, IsCut text target rest := by
  constructor
  · intro found
    rcases ofCharacters?_cases text with
      ⟨scheme, after, inner, marked, read, made⟩ | ⟨unschemed, made⟩
    · rw [made] at found
      obtain rfl := Option.some.inj found
      obtain ⟨_, rest, whole, host, port⟩ :=
        withoutScheme?_eq_some_iff.1 read
      refine ⟨rest, ?_, ?_, host, port⟩
      · have split := (schemeAt?_eq_some_iff.1 marked).2
        simp [schemeText, portText, split, whole]
      · intro name
        rw [beginsWithScheme_iff, Option.some.injEq]
        constructor
        · rintro rfl
          rw [String.toList_ofList]
          exact ⟨after, marked, by simp [read]⟩
        · rintro ⟨_, same, _⟩
          rw [marked] at same
          cases same
          exact String.ofList_toList
    · rw [made] at found
      obtain ⟨none, rest, whole, host, port⟩ :=
        withoutScheme?_eq_some_iff.1 found
      refine ⟨rest, ?_, ?_, host, port⟩
      · rw [schemeText, none]
        exact whole
      · intro scheme
        rw [none]
        exact iff_of_false (by simp) (unschemed scheme.toList)
  · rintro ⟨rest, cut⟩
    have whole := cut.whole
    cases given : target.scheme with
    | none =>
        rcases ofCharacters?_cases text with
          ⟨scheme, after, inner, marked, read, _⟩ | ⟨_, made⟩
        · have begins := beginsWithScheme_iff.2
            ⟨after, marked, by simp [read]⟩
          rw [← String.toList_ofList (l := scheme), ← cut.scheme_iff, given]
            at begins
          cases begins
        · rw [made, withoutScheme?_eq_some_iff]
          rw [schemeText, given] at whole
          exact ⟨given, rest, whole, cut.host_cut, cut.port_cut⟩
    | some scheme =>
        have begins := (cut.scheme_iff scheme).1 given
        obtain ⟨after, marked, _⟩ := beginsWithScheme_iff.1 begins
        have split := (schemeAt?_eq_some_iff.1 marked).2
        have rest_eq :
            after = target.host.toList ++ (target.portText ++ rest) := by
          rw [split] at whole
          simpa [schemeText, given] using whole
        have read :
            withoutScheme? after = some { target with scheme := none } :=
          withoutScheme?_eq_some_iff.2
            ⟨rfl, rest, rest_eq, cut.host_cut, cut.port_cut⟩
        rw [ofCharacters?, marked]
        simp [read, ← given]

theorem ofCharacters?_eq_none_iff {text : List Char} :
    ofCharacters? text = none ↔
      ∀ character ∈ text.head?, endsHost character = true := by
  rcases ofCharacters?_cases text with
    ⟨scheme, rest, inner, marked, _, made⟩ | ⟨_, made⟩
  · obtain ⟨⟨first, later, rfl, starts, _⟩, rfl⟩ :=
      schemeAt?_eq_some_iff.1 marked
    have begins : endsHost first = false :=
      endsHost_of_isSchemeCharacter (by simp [isSchemeCharacter, starts])
    rw [made]
    simp [begins]
  · rw [made, withoutScheme?_eq_none_iff]

theorem extract_eq_unixSocket_iff {raw : String} :
    extract raw = .error .unixSocket ↔ "unix:".toList <:+: raw.toList := by
  rw [← Text.occurs_iff_infix]
  unfold extract
  split
  next mentioned => simpa using mentioned
  next unmentioned =>
    refine iff_of_false ?_ unmentioned
    split <;> simp

theorem extract_of_network {raw : String}
    (network : ¬ "unix:".toList <:+: raw.toList) :
    extract raw = match ofCharacters? raw.toList with
      | some target => .ok target
      | none => .error .unrecognized := by
  rw [← Text.occurs_iff_infix] at network
  exact if_neg network

theorem extract_eq_ok_iff {raw : String} {target : ProxyTarget} :
    extract raw = .ok target ↔ ¬ "unix:".toList <:+: raw.toList ∧
      ofCharacters? raw.toList = some target := by
  by_cases mentioned : "unix:".toList <:+: raw.toList
  · rw [extract_eq_unixSocket_iff.2 mentioned]
    exact iff_of_false (by simp) fun both => both.1 mentioned
  · rw [extract_of_network mentioned, and_iff_right mentioned]
    cases ofCharacters? raw.toList <;> simp

theorem extract_eq_unrecognized_iff {raw : String} :
    extract raw = .error .unrecognized ↔
      ¬ "unix:".toList <:+: raw.toList ∧
        ofCharacters? raw.toList = none := by
  by_cases mentioned : "unix:".toList <:+: raw.toList
  · rw [extract_eq_unixSocket_iff.2 mentioned]
    exact iff_of_false (by simp) fun both => both.1 mentioned
  · rw [extract_of_network mentioned, and_iff_right mentioned]
    cases ofCharacters? raw.toList <;> simp

/-- How a target is cut.  A text that mentions a Unix socket names no host, and
neither does an empty one or one that starts with a character which no host
contains.  Every other text is cut into its parts where they should be cut off,
which is the first way in which the pattern of a target matches. -/
theorem extract_exact_cut (raw : String) :
    (extract raw = .error .unixSocket ↔
      "unix:".toList <:+: raw.toList) ∧
    (extract raw = .error .unrecognized ↔
      ¬ "unix:".toList <:+: raw.toList ∧ ∀ first later,
        raw.toList = first :: later → first ∈ ['/', '?', '#', ':']) ∧
    ((∃ target, extract raw = .ok target) ↔
      ¬ "unix:".toList <:+: raw.toList ∧ ∃ first later,
        raw.toList = first :: later ∧ first ∉ ['/', '?', '#', ':']) ∧
    (∀ target, extract raw = .ok target ↔
      ¬ "unix:".toList <:+: raw.toList ∧
        ∃ rest, IsCut raw.toList target rest) ∧
    ∀ target, extract raw = .ok target ↔
      ¬ "unix:".toList <:+: raw.toList ∧
        (TargetPattern.target.first? raw.toList).bind
          TargetPattern.target? = some target := by
  have unread : ofCharacters? raw.toList = none ↔ ∀ first later,
      raw.toList = first :: later → first ∈ ['/', '?', '#', ':'] := by
    rw [ofCharacters?_eq_none_iff]
    simp only [endsHost_iff]
    cases raw.toList with
    | nil => simp
    | cons first later => simp
  refine ⟨extract_eq_unixSocket_iff, ?_, ?_, ?_, ?_⟩
  · rw [extract_eq_unrecognized_iff, unread]
  · simp only [extract_eq_ok_iff, exists_and_left]
    refine and_congr_right fun _ => ?_
    rw [← Option.isSome_iff_exists, ← Option.ne_none_iff_isSome, ne_eq, unread]
    simp
  · intro target
    rw [extract_eq_ok_iff, ofCharacters?_eq_some_iff]
  · intro target
    rw [extract_eq_ok_iff, TargetPattern.ofCharacters?_eq_first?]

example : extract "http:///x" = .ok ⟨none, "http", none⟩ := by
  decide +kernel

end ProxyTarget

end ProxyLint
