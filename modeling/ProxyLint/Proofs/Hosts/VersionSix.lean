import ProxyLint.Proofs.Hosts.Address
import Mathlib.Data.List.Basic

/-!
# The text of addresses of version six

An address of version six is eight groups of hexadecimal digits between
colons.  The last two groups may be written as an address of version four, and
two colons may stand for one or more groups of zero.
-/

namespace ProxyLint

namespace Host

def IsHexGroup (text : List Char) : Prop :=
  text ≠ [] ∧ text.length ≤ 4 ∧ ∀ digit ∈ text, isHexDigit digit = true

/-- Texts that stand for a number of groups, in the order of an address. -/
inductive StandFor : List (List Char) → Nat → Prop where
  | nothing : StandFor [] 0
  | dotted {address : List Char} (quad : IsDottedQuad address) :
      StandFor [address] 2
  | group {text : List Char} {later : List (List Char)} {count : Nat}
      (hexadecimal : IsHexGroup text) (rest : StandFor later count) :
      StandFor (text :: later) (count + 1)

/-- Texts with colons in between. -/
def colonJoined (texts : List (List Char)) : List Char :=
  [':'].intercalate texts

/-- The form of addresses of version six. -/
inductive IsVersionSixText : List Char → Prop where
  | full {texts : List (List Char)} (eight : StandFor texts 8) :
      IsVersionSixText (colonJoined texts)
  | compressed {before after : List (List Char)} {count : Nat}
      (plain : ∀ text ∈ before, IsHexGroup text)
      (counted : StandFor after count) (short : before.length + count ≤ 7) :
      IsVersionSixText (colonJoined before ++ ':' :: ':' :: colonJoined after)

theorem isGroup_iff {text : List Char} :
    isGroup text = true ↔ IsHexGroup text := by
  simp [isGroup, IsHexGroup, and_assoc]

/-- A dotted address starts with a digit. -/
theorem IsDottedQuad.exists_cons {text : List Char}
    (quad : IsDottedQuad text) :
    ∃ first later, text = first :: later ∧ first.isDigit = true := by
  obtain ⟨a, _, b, _, c, _, d, _, rfl⟩ := quad
  exact Text.exists_cons_of_digits Nat.toDigits_ne_nil
    (fun _ => Text.isDigit_of_mem_toDigits) _

theorem IsDottedQuad.dot_mem {text : List Char} (quad : IsDottedQuad text) :
    '.' ∈ text := by
  obtain ⟨a, _, b, _, c, _, d, _, rfl⟩ := quad
  simp

theorem IsDottedQuad.colon_not_mem {text : List Char}
    (quad : IsDottedQuad text) : ':' ∉ text := by
  have noColon : ∀ number, ':' ∉ Nat.toDigits 10 number :=
    not_mem_toDigits (by decide)
  obtain ⟨a, _, b, _, c, _, d, _, rfl⟩ := quad
  simp [noColon]

theorem IsHexGroup.not_mem {text : List Char} {symbol : Char}
    (hexadecimal : IsHexGroup text) (other : isHexDigit symbol = false) :
    symbol ∉ text := by
  intro member
  have digit := hexadecimal.2.2 symbol member
  rw [other] at digit
  cases digit

theorem IsHexGroup.not_isDottedQuad {text : List Char}
    (hexadecimal : IsHexGroup text) : ¬ IsDottedQuad text := fun quad =>
  hexadecimal.not_mem (by decide) quad.dot_mem

theorem standFor_cons_iff {text : List Char} {later : List (List Char)}
    {count : Nat} : StandFor (text :: later) count ↔
      (IsHexGroup text ∧ ∃ less, StandFor later less ∧ count = less + 1) ∨
        IsDottedQuad text ∧ later = [] ∧ count = 2 := by
  constructor
  · intro stand
    cases stand with
    | dotted quad => exact .inr ⟨quad, rfl, rfl⟩
    | group hexadecimal rest => exact .inl ⟨hexadecimal, _, rest, rfl⟩
  · rintro (⟨hexadecimal, less, rest, rfl⟩ | ⟨quad, rfl, rfl⟩)
    · exact .group hexadecimal rest
    · exact .dotted quad

theorem standFor_nil_iff {count : Nat} : StandFor [] count ↔ count = 0 := by
  constructor
  · rintro ⟨⟩
    rfl
  · rintro rfl
    exact .nothing

/-- Groups are counted as they stand in an address. -/
theorem groupCount?_eq_some_iff {texts : List (List Char)} {count : Nat} :
    groupCount? texts = some count ↔ StandFor texts count := by
  fun_induction groupCount? texts generalizing count with
  | case1 => simp [standFor_nil_iff, eq_comm]
  | case2 last hexadecimal =>
      have group := isGroup_iff.1 hexadecimal
      simp [standFor_cons_iff, standFor_nil_iff, group,
        group.not_isDottedQuad, eq_comm]
  | case3 last other dotted =>
      rw [isGroup_iff] at other
      simp [standFor_cons_iff, other, isVersionFour_iff.1 dotted, eq_comm]
  | case4 last other undotted =>
      rw [isGroup_iff] at other
      rw [isVersionFour_iff] at undotted
      simp [standFor_cons_iff, other, undotted]
  | case5 text rest several hexadecimal ih =>
      have group := isGroup_iff.1 hexadecimal
      simp only [Option.map_eq_map, Option.map_eq_some_iff, ih,
        standFor_cons_iff, group, group.not_isDottedQuad, true_and, false_and,
        or_false]
      simp only [eq_comm]
  | case6 text rest several other =>
      rw [isGroup_iff] at other
      have longer : rest ≠ [] := several
      simp [standFor_cons_iff, other, longer]

/-- Each text in an address has a character, and none is a colon. -/
theorem StandFor.colon_not_mem {texts : List (List Char)} {count : Nat}
    (stand : StandFor texts count) :
    ∀ text ∈ texts, text ≠ [] ∧ ':' ∉ text := by
  induction stand with
  | nothing => simp
  | dotted quad =>
      obtain ⟨first, later, rfl, _⟩ := quad.exists_cons
      simpa using quad.colon_not_mem
  | group hexadecimal _ ih =>
      exact List.forall_mem_cons.2
        ⟨⟨hexadecimal.1, hexadecimal.not_mem (by decide)⟩, ih⟩

theorem head?_colonJoined {text : List Char} (nonempty : text ≠ [])
    (others : List (List Char)) (rest : List Char) :
    (colonJoined (text :: others) ++ rest).head? = text.head? := by
  cases text with
  | nil => exact absurd rfl nonempty
  | cons first later => cases others <;> rfl

theorem colonJoined_groups (text : List Char) :
    colonJoined (groups text) = text := by
  unfold groups
  split
  next empty => exact (List.isEmpty_iff.1 empty).symm
  next => exact Text.intercalate_pieces ':' text

/-- The texts of an address are found between its colons. -/
theorem groups_colonJoined {texts : List (List Char)}
    (proper : ∀ text ∈ texts, text ≠ [] ∧ ':' ∉ text) :
    groups (colonJoined texts) = texts := by
  cases texts with
  | nil => rfl
  | cons text others =>
      obtain ⟨nonempty, _⟩ := proper text List.mem_cons_self
      have first := head?_colonJoined nonempty others []
      rw [List.append_nil] at first
      have present : colonJoined (text :: others) ≠ [] := by
        intro empty
        rw [empty] at first
        exact nonempty (List.head?_eq_none_iff.1 first.symm)
      rw [groups, if_neg (mt List.isEmpty_iff.1 present)]
      exact Text.pieces_intercalate (List.cons_ne_nil text others)
        fun other member => (proper other member).2

theorem cutAtCompression_cons {character : Char} {rest : List Char}
    (single : character = ':' → rest.head? ≠ some ':') :
    cutAtCompression (character :: rest) =
      (cutAtCompression rest).map fun cut => (character :: cut.1, cut.2) := by
  rw [cutAtCompression]
  rintro later rfl rfl
  exact single rfl rfl

theorem cutAtCompression_append {text : List Char} (absent : ':' ∉ text)
    (rest : List Char) :
    cutAtCompression (text ++ rest) =
      (cutAtCompression rest).map fun cut => (text ++ cut.1, cut.2) := by
  induction text with
  | nil => simp
  | cons character later ih =>
      have other : character ≠ ':' := by
        rintro rfl
        exact absent List.mem_cons_self
      rw [List.cons_append, cutAtCompression_cons (absurd · other),
        ih fun member => absent (List.mem_cons_of_mem _ member),
        Option.map_map]
      rfl

/-- Joined texts have no pair of colons, so the cut is made behind them. -/
theorem cutAtCompression_colonJoined {texts : List (List Char)}
    (proper : ∀ text ∈ texts, text ≠ [] ∧ ':' ∉ text) (rest : List Char) :
    cutAtCompression (colonJoined texts ++ rest) =
      (cutAtCompression rest).map fun cut =>
        (colonJoined texts ++ cut.1, cut.2) := by
  induction texts with
  | nil => simp [colonJoined]
  | cons text others ih =>
      obtain ⟨⟨_, absent⟩, properOthers⟩ := List.forall_mem_cons.1 proper
      cases others with
      | nil =>
          rw [colonJoined, List.intercalate_singleton]
          exact cutAtCompression_append absent rest
      | cons next later =>
          obtain ⟨nonempty, plain⟩ := properOthers next List.mem_cons_self
          have split : colonJoined (text :: next :: later) =
              text ++ ':' :: colonJoined (next :: later) := by
            simp [colonJoined, List.intercalate_cons_cons]
          have single : (colonJoined (next :: later) ++ rest).head? ≠
              some ':' := by
            rw [head?_colonJoined nonempty]
            exact fun first => plain (List.mem_of_head? first)
          rw [split, List.append_assoc, cutAtCompression_append absent,
            List.cons_append, cutAtCompression_cons fun _ => single,
            ih properOthers, Option.map_map, Option.map_map]
          simp [Function.comp_def]

theorem eq_of_cutAtCompression {text before after : List Char}
    (cut : cutAtCompression text = some (before, after)) :
    text = before ++ ':' :: ':' :: after := by
  fun_induction cutAtCompression text generalizing before after with
  | case1 => cases cut
  | case2 rest =>
      cases cut
      rfl
  | case3 character rest _ ih =>
      obtain ⟨inner, found, same⟩ := Option.map_eq_some_iff.1 cut
      cases same
      rw [ih found]
      rfl

theorem isVersionSix_iff {text : List Char} :
    isVersionSix text = true ↔ IsVersionSixText text := by
  constructor
  · intro address
    unfold isVersionSix at address
    split at address
    next => 
      rw [← colonJoined_groups text]
      exact .full (groupCount?_eq_some_iff.1 (beq_iff_eq.1 address))
    next before after cut =>
      simp only [Bool.and_eq_true, List.all_eq_true, isGroup_iff,
        Option.any_eq_true, decide_eq_true_eq,
        groupCount?_eq_some_iff] at address
      obtain ⟨plain, count, counted, short⟩ := address
      rw [eq_of_cutAtCompression cut, ← colonJoined_groups before,
        ← colonJoined_groups after]
      exact .compressed plain counted short
  · intro form
    cases form with
    | full eight =>
        have proper := eight.colon_not_mem
        have uncut := cutAtCompression_colonJoined proper []
        rw [List.append_nil] at uncut
        rw [isVersionSix, uncut]
        simp [cutAtCompression, groups_colonJoined proper,
          groupCount?_eq_some_iff.2 eight]
    | @compressed before after count plain counted short =>
        have proper : ∀ text ∈ before, text ≠ [] ∧ ':' ∉ text := by
          intro text member
          exact ⟨(plain text member).1,
            (plain text member).not_mem (by decide)⟩
        have cut := cutAtCompression_colonJoined proper
          (':' :: ':' :: colonJoined after)
        simp only [cutAtCompression, Option.map_some, List.append_nil] at cut
        rw [isVersionSix, cut]
        simp only [groups_colonJoined proper,
          groups_colonJoined counted.colon_not_mem,
          groupCount?_eq_some_iff.2 counted]
        simpa [isGroup_iff] using ⟨plain, short⟩

/-- An address of version six starts with a colon or a hexadecimal digit. -/
theorem IsVersionSixText.exists_cons {text : List Char}
    (form : IsVersionSixText text) : ∃ first later, text = first :: later ∧
      (first = ':' ∨ isHexDigit first = true) := by
  have start {group : List Char} (others : List (List Char))
      (rest : List Char) (hexadecimal : IsHexGroup group) :
      ∃ first later, colonJoined (group :: others) ++ rest = first :: later ∧
        (first = ':' ∨ isHexDigit first = true) := by
    obtain ⟨nonempty, _, digits⟩ := hexadecimal
    have head := head?_colonJoined nonempty others rest
    cases group with
    | nil => exact absurd rfl nonempty
    | cons first inner =>
        obtain ⟨later, same⟩ := List.head?_eq_some_iff.1 head
        exact ⟨first, later, same, .inr (digits first List.mem_cons_self)⟩
  cases form with
  | full eight =>
      cases eight with
      | @group group others _ hexadecimal _ =>
          have first := start others [] hexadecimal
          rwa [List.append_nil] at first
  | @compressed before after count plain _ _ =>
      cases before with
      | nil => exact ⟨':', _, rfl, .inl rfl⟩
      | cons group others =>
          exact start others _ (plain group List.mem_cons_self)

theorem IsVersionSixText.head?_ne {text : List Char}
    (form : IsVersionSixText text) : text.head? ≠ some '[' := by
  obtain ⟨first, later, rfl, start⟩ := form.exists_cons
  rw [List.head?_cons]
  intro bracket
  obtain rfl := Option.some.inj bracket
  revert start
  decide

theorem IsDottedQuad.head?_ne {text : List Char} (quad : IsDottedQuad text)
    (rest : List Char) : (text ++ rest).head? ≠ some '[' := by
  obtain ⟨first, later, rfl, digit⟩ := quad.exists_cons
  rw [List.cons_append, List.head?_cons]
  intro bracket
  obtain rfl := Option.some.inj bracket
  revert digit
  decide

/-- The hosts that are addresses: version four with a port or without, version
six with brackets or without. -/
inductive IsAddressText : List Char → Prop where
  | versionFour {address : List Char} (quad : IsDottedQuad address) :
      IsAddressText address
  | versionFourPort {address port : List Char} (quad : IsDottedQuad address)
      (digits : ∀ digit ∈ port, digit.isDigit = true) :
      IsAddressText (address ++ ':' :: port)
  | versionSix {address : List Char} (form : IsVersionSixText address) :
      IsAddressText address
  | bracketed {address : List Char} (form : IsVersionSixText address) :
      IsAddressText ('[' :: (address ++ [']']))

theorem withoutPort_eq_or (text : List Char) :
    withoutPort text = text ∨ ∃ port,
      (∀ digit ∈ port, digit.isDigit = true) ∧
        text = withoutPort text ++ ':' :: port := by
  unfold withoutPort
  split
  next address port cut =>
    split
    next digits =>
      refine .inr ⟨port, List.all_eq_true.1 digits, ?_⟩
      have whole := Text.intercalate_pieces ':' text
      rw [cut, List.intercalate_cons_cons, List.intercalate_singleton,
        List.append_assoc] at whole
      exact whole.symm
    next => exact .inl rfl
  next => exact .inl rfl

theorem withoutPort_append {address port : List Char} (absent : ':' ∉ address)
    (digits : ∀ digit ∈ port, digit.isDigit = true) :
    withoutPort (address ++ ':' :: port) = address := by
  have portAbsent : ':' ∉ port := fun member =>
    absurd (digits ':' member) (by decide)
  rw [withoutPort, Text.pieces_append absent,
    Text.pieces_of_not_mem portAbsent]
  exact if_pos (List.all_eq_true.2 digits)

theorem withoutBrackets_eq_or (text : List Char) :
    withoutBrackets text = text ∨
      text = '[' :: (withoutBrackets text ++ [']']) := by
  unfold withoutBrackets
  split
  next rest =>
    split
    next closed =>
      right
      obtain ⟨inner, same⟩ := List.getLast?_eq_some_iff.1 closed
      rw [same, List.dropLast_concat]
    next => exact .inl rfl
  next => exact .inl rfl

theorem withoutBrackets_bracketed (address : List Char) :
    withoutBrackets ('[' :: (address ++ [']'])) = address := by
  simp [withoutBrackets]

theorem getLast?_bracketed_port {address port : List Char}
    (digits : ∀ digit ∈ port, digit.isDigit = true) :
    ('[' :: (address ++ ']' :: ':' :: port)).getLast? ≠ some ']' := by
  intro last
  rw [List.append_cons, ← List.cons_append, List.getLast?_append_cons] at last
  rcases List.mem_cons.1 (List.mem_of_getLast? last) with colon | member
  · exact absurd colon (by decide)
  · exact absurd (digits ']' member) (by decide)

/-- The port behind a bracketed address is not taken off. -/
theorem not_isAddressText_of_bracketed_port {address port : List Char}
    (digits : ∀ digit ∈ port, digit.isDigit = true) :
    ¬ IsAddressText ('[' :: (address ++ ']' :: ':' :: port)) := by
  have last : ('[' :: (address ++ ']' :: ':' :: port)).getLast? ≠ some ']' :=
    getLast?_bracketed_port digits
  generalize same : '[' :: (address ++ ']' :: ':' :: port) = text at last ⊢
  have first : text.head? = some '[' := by
    rw [← same]
    rfl
  rintro (quad | ⟨quad, _⟩ | form | form)
  · exact quad.head?_ne [] (by rwa [List.append_nil])
  · exact quad.head?_ne _ first
  · exact form.head?_ne first
  · rw [← List.cons_append, List.getLast?_concat] at last
    exact last rfl

end Host

open Host

theorem isAddress_iff {host : String} :
    isAddress host = true ↔ IsAddressText host.toList := by
  simp only [isAddress, isIpv6, isIpv4, if_true, Bool.or_eq_true,
    isVersionSix_iff, isVersionFour_iff]
  constructor
  · rintro (six | four)
    · rcases withoutBrackets_eq_or host.toList with bare | enclosed
      · rw [bare] at six
        exact .versionSix six
      · rw [enclosed]
        exact .bracketed six
    · rcases withoutPort_eq_or host.toList with
        bare | ⟨port, digits, parts⟩
      · rw [bare] at four
        exact .versionFour four
      · rw [parts]
        exact .versionFourPort four digits
  · generalize host.toList = text
    rintro (quad | ⟨quad, digits⟩ | form | form)
    · right
      rwa [withoutPort_of_no_colon quad.colon_not_mem]
    · right
      rwa [withoutPort_append quad.colon_not_mem digits]
    · left
      rwa [withoutBrackets_of_unbracketed form.head?_ne]
    · left
      rwa [withoutBrackets_bracketed]

end ProxyLint
