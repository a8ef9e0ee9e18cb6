import ProxyLint.Proofs.Configuration.Lexemes

/-!
# Backslashes in quoted arguments

The written form of a directive puts a backslash before double quotes and
copies backslashes as they are.  A reader takes a backslash before a double
quote or before another backslash away.  So a quoted argument comes back as it
was exactly if each of its backslashes stands before some other character.

The argument counts characters.  A reader never makes a double quote from fewer
than two characters, and a written argument has just two for each.  If a
backslash got lost, the rest of the argument could not make up for it.
-/

namespace ProxyLint

/-- A word that can stand bare. -/
structure IsPlainWord (word : List Char) : Prop where
  nonempty : word ≠ []
  whole : ∀ character ∈ word, isDelimiter character = false
  opens : ∀ first ∈ word.head?, first ∉ ['"', '\'', '#']

/-- All three conditions can be checked from left to right. -/
theorem isPlainWord_iff {word : List Char} :
    IsPlainWord word ↔ word.isEmpty = false ∧
      word.any isDelimiter = false ∧
      word.head?.any (['"', '\'', '#'].contains ·) = false := by
  constructor
  · intro plain
    refine ⟨by simpa using plain.nonempty, by simpa using plain.whole, ?_⟩
    cases start : word.head? with
    | none => rfl
    | some first => simpa using plain.opens first start
  · rintro ⟨nonempty, whole, opens⟩
    refine ⟨by simpa using nonempty, by simpa using whole, ?_⟩
    intro first start
    rw [Option.mem_def.1 start] at opens
    simpa using opens

instance (word : List Char) : Decidable (IsPlainWord word) :=
  decidable_of_iff' _ isPlainWord_iff

/-- No backslash stands before a backslash, before a double quote or at the
end. -/
def KeepsBackslashes (word : List Char) : Prop :=
  ∀ before after, word = before ++ '\\' :: after →
    ∃ next rest, after = next :: rest ∧ next ≠ '\\' ∧ next ≠ '"'

/-- The arguments that the written form of a directive shows as they are. -/
inductive IsFaithful (argument : List Char) : Prop where
  | bare (plain : IsPlainWord argument)
  | quoted (needed : argument = [] ∨
        ∃ character ∈ argument, isDelimiter character = true)
      (kept : KeepsBackslashes argument)

theorem needsQuotes_iff {argument : List Char} :
    needsQuotes argument = true ↔ argument = [] ∨
      ∃ character ∈ argument, isDelimiter character = true := by
  simp [needsQuotes]

theorem IsPlainWord.needsQuotes_eq_false {word : List Char}
    (plain : IsPlainWord word) : needsQuotes word = false := by
  rw [Bool.eq_false_iff, Ne, needsQuotes_iff, not_or]
  refine ⟨plain.nonempty, fun ⟨character, member, delimits⟩ => ?_⟩
  rw [plain.whole character member] at delimits
  cases delimits

theorem keepsBackslashes_nil : KeepsBackslashes [] := by
  simp [KeepsBackslashes]

theorem keepsBackslashes_cons {character : Char} {word : List Char} :
    KeepsBackslashes (character :: word) ↔
      (character = '\\' →
        ∃ next rest, word = next :: rest ∧ next ≠ '\\' ∧ next ≠ '"') ∧
      KeepsBackslashes word := by
  constructor
  · intro kept
    refine ⟨?_, fun before after split => ?_⟩
    · rintro rfl
      exact kept [] word rfl
    · exact kept (character :: before) after (by rw [split]; rfl)
  · rintro ⟨here, later⟩ before after split
    cases before with
    | nil =>
        obtain ⟨rfl, rfl⟩ := List.cons.inj split
        exact here rfl
    | cons first before => exact later before after (List.cons.inj split).2

theorem escapeQuotes_cons (character : Char) (word : List Char) :
    escapeQuotes (character :: word) =
      if character = '"' then '\\' :: '"' :: escapeQuotes word
      else character :: escapeQuotes word :=
  rfl

theorem length_escapeQuotes (word : List Char) :
    (escapeQuotes word).length = word.length + word.count '"' := by
  induction word with
  | nil => rfl
  | cons character word ih =>
      by_cases mark : character = '"'
      · simp [escapeQuotes_cons, mark, ih]
        omega
      · simp [escapeQuotes_cons, mark, ih]
        omega

/-- A quotation mark in a quoted word takes two characters. -/
theorem QuotedBody.length_add_count_le {quote : Char} (mark : quote ≠ '\\')
    {body word : List Char} (inside : QuotedBody quote body word) :
    word.length + word.count quote ≤ body.length := by
  induction inside with
  | empty => exact Nat.le_refl _
  | plain inside _ _ ih =>
      rw [List.count_cons_of_ne inside, List.length_cons, List.length_cons]
      omega
  | @guarded character _ _ _ _ ih =>
      have most := List.count_le_length (a := quote) (l := [character])
      rw [← List.singleton_append, List.count_append]
      simp only [List.length_cons, List.length_append, List.length_nil] at *
      omega
  | kept free _ ih =>
      rw [not_or] at free
      rw [List.count_cons_of_ne mark.symm, List.count_cons_of_ne free.1]
      simp only [List.length_cons]
      omega

theorem quotedBody_plain_iff {quote character : Char} {body word : List Char}
    (inside : character ≠ quote) (unescaped : character ≠ '\\') :
    QuotedBody quote (character :: body) word ↔
      ∃ rest, word = character :: rest ∧ QuotedBody quote body rest := by
  constructor
  · intro spelled
    cases spelled with
    | plain _ _ rest => exact ⟨_, rfl, rest⟩
    | guarded _ _ => exact absurd rfl unescaped
    | kept _ _ => exact absurd rfl unescaped
  · rintro ⟨rest, rfl, spelled⟩
    exact .plain inside unescaped spelled

/-- A backslash in quotes never stands alone. -/
theorem quotedBody_backslash_iff {quote : Char} {body word : List Char} :
    QuotedBody quote ('\\' :: body) word ↔
      ∃ next later rest, body = next :: later ∧ QuotedBody quote later rest ∧
        word = if next = quote ∨ next = '\\' then next :: rest
          else '\\' :: next :: rest := by
  constructor
  · intro spelled
    cases spelled with
    | plain _ unescaped _ => exact absurd rfl unescaped
    | guarded guarded rest => exact ⟨_, _, _, rfl, rest, (if_pos guarded).symm⟩
    | kept free rest => exact ⟨_, _, _, rfl, rest, (if_neg free).symm⟩
  · rintro ⟨next, later, rest, rfl, spelled, rfl⟩
    split
    next guarded => exact .guarded guarded spelled
    next free => exact .kept free spelled

/-- Behind a copied backslash the reader keeps the rest of the word only if it
keeps the backslash too.  Otherwise what it reads comes out too short. -/
theorem quotedBody_copied_iff {word : List Char} :
    QuotedBody '"' ('\\' :: escapeQuotes word) ('\\' :: word) ↔
      (∃ next rest, word = next :: rest ∧ next ≠ '\\' ∧ next ≠ '"') ∧
        QuotedBody '"' (escapeQuotes word) word := by
  rw [quotedBody_backslash_iff]
  constructor
  · rintro ⟨next, later, rest, written, spelled, same⟩
    split at same
    next =>
      obtain ⟨_, rfl⟩ := List.cons.inj same
      have bound := spelled.length_add_count_le (by decide)
      have length := length_escapeQuotes word
      rw [written, List.length_cons] at length
      omega
    next free =>
      obtain ⟨unmarked, unescaped⟩ := not_or.1 free
      obtain ⟨_, rfl⟩ := List.cons.inj same
      refine ⟨⟨next, rest, rfl, unescaped, unmarked⟩, ?_⟩
      rw [written, quotedBody_plain_iff unmarked unescaped]
      exact ⟨rest, rfl, spelled⟩
  · rintro ⟨⟨next, rest, rfl, unescaped, unmarked⟩, spelled⟩
    rw [escapeQuotes_cons, if_neg unmarked,
      quotedBody_plain_iff unmarked unescaped] at spelled
    obtain ⟨_, same, spelled⟩ := spelled
    obtain ⟨_, rfl⟩ := List.cons.inj same
    refine ⟨next, _, _, ?_, spelled, ?_⟩
    · rw [escapeQuotes_cons, if_neg unmarked]
    · rw [if_neg (by simp [unmarked, unescaped])]

theorem quotedBody_escapeQuotes_iff {word : List Char} :
    QuotedBody '"' (escapeQuotes word) word ↔ KeepsBackslashes word := by
  induction word with
  | nil => exact ⟨fun _ => keepsBackslashes_nil, fun _ => .empty⟩
  | cons character word ih =>
      rw [keepsBackslashes_cons, ← ih, escapeQuotes_cons]
      by_cases mark : character = '"'
      · subst mark
        rw [if_pos rfl, quotedBody_backslash_iff]
        simp
      rw [if_neg mark]
      by_cases escape : character = '\\'
      · subst escape
        rw [quotedBody_copied_iff]
        simp
      · rw [quotedBody_plain_iff mark escape]
        simp [escape]

/-- A mark that is not in the tail of a text stands in front of it. -/
theorem exists_front_of_append_eq {mark : Char}
    {body ahead front tail : List Char}
    (whole : front ++ tail = body ++ mark :: ahead) (free : mark ∉ tail) :
    ∃ between, front = body ++ mark :: between := by
  rcases List.append_eq_append_iff.1 whole with
    ⟨inner, _, split⟩ | ⟨inner, split, rest⟩
  · exact absurd (split ▸ by simp) free
  · cases inner with
    | nil =>
        rw [List.nil_append] at rest
        exact absurd (rest ▸ List.mem_cons_self) free
    | cons first between =>
        obtain ⟨rfl, _⟩ := List.cons.inj rest
        exact ⟨between, split⟩

/-- A quoted argument that is read back is closed where its written form closes
it. -/
theorem keepsBackslashes_of_quotedBody {argument body ahead tail : List Char}
    (whole : escapeQuotes argument ++ ['"'] ++ tail = body ++ '"' :: ahead)
    (free : '"' ∉ tail) (inside : QuotedBody '"' body argument) :
    KeepsBackslashes argument := by
  have bound := inside.length_add_count_le (by decide)
  obtain ⟨between, front⟩ := exists_front_of_append_eq whole free
  have length := congrArg List.length front
  simp only [List.length_append, List.length_cons, List.length_nil,
    length_escapeQuotes] at length
  -- The body starts the written argument and is not shorter than it.
  have same : escapeQuotes argument = body :=
    (List.append_inj front (by rw [length_escapeQuotes]; omega)).1
  rwa [← quotedBody_escapeQuotes_iff, same]

end ProxyLint
