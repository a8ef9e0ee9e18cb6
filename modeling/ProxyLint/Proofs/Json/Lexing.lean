import ProxyLint.Json.Printer
import ProxyLint.Json.Lexer
import ProxyLint.Proofs.Text.Decimal

/-!
# Reading tokens off a written text

The lexer ends a bare run only at the character behind it.  A written value is
therefore read up to a character that ends runs, and what follows an item or a
member of a container always starts with such a character.
-/

namespace ProxyLint

namespace Json

/-- Between two tokens the lexer finds the tokens in the text and is between
two tokens again. -/
def Reads (text : List Char) (tokens : List Token) : Prop :=
  ∀ before, text.foldlM Lexer.step ⟨.between, before⟩ =
    some ⟨.between, tokens.reverse ++ before⟩

/-- The tokens are found in the text at a character that ends runs. -/
def ReadsUpTo (text : List Char) (tokens : List Token) : Prop :=
  ∀ before ending, Lexer.endsRun ending = true →
    (text ++ [ending]).foldlM Lexer.step ⟨.between, before⟩ =
      Lexer.step ⟨.between, tokens.reverse ++ before⟩ ending

/-- A text with the tokens that ends a run in front of it. -/
structure Closes (text : List Char) (tokens : List Token) : Prop where
  ends : ∃ ending rest, text = ending :: rest ∧ Lexer.endsRun ending = true
  reads : Reads text tokens

theorem foldlM_step_singleton (lexer : Lexer) (character : Char) :
    [character].foldlM Lexer.step lexer = lexer.step character :=
  bind_pure _

/-! ## One step in each mode -/

namespace Lexer

theorem step_between (before : List Token) (character : Char) :
    step ⟨.between, before⟩ character =
      some (stepBetween ⟨.between, before⟩ character) :=
  rfl

theorem step_bare (run : List Char) (before : List Token) (character : Char) :
    step ⟨.bare run, before⟩ character =
      if endsRun character then
        (bareToken? run.reverse).bind fun token =>
          step ⟨.between, token :: before⟩ character
      else some ⟨.bare (character :: run), before⟩ :=
  rfl

theorem step_text {character : Char} (plain : character ≠ '"')
    (literal : character ≠ '\\') (printed : ¬ character.toNat < 0x20)
    (units : List TextUnit) (before : List Token) :
    step ⟨.text units, before⟩ character =
      some ⟨.text (.character character :: units), before⟩ := by
  simp [step, plain, literal, printed]

theorem step_quote (units : List TextUnit) (before : List Token) :
    step ⟨.text units, before⟩ '"' =
      some ⟨.between, .text units.reverse :: before⟩ :=
  rfl

/-- A digit of a hexadecimal escape before the last one. -/
theorem step_hex {digit : Char} {value : Nat}
    (known : hexValue? digit = some value) (units : List TextUnit) (code : Nat)
    {digitsRead : Nat} (more : digitsRead ≠ 3) (before : List Token) :
    step ⟨.hex units code digitsRead, before⟩ digit =
      some ⟨.hex units (code * 16 + value) (digitsRead + 1), before⟩ := by
  simp [step, known, more]

theorem step_lastHex {digit : Char} {value : Nat}
    (known : hexValue? digit = some value) (units : List TextUnit) (code : Nat)
    (before : List Token) :
    step ⟨.hex units code 3, before⟩ digit =
      some ⟨.text (unitOfCode (code * 16 + value) :: units), before⟩ := by
  simp [step, known]

end Lexer

theorem reads_nil : Reads [] [] := fun _ => rfl

theorem Reads.append {first second : List Char}
    {firstTokens secondTokens : List Token} (reads : Reads first firstTokens)
    (next : Reads second secondTokens) :
    Reads (first ++ second) (firstTokens ++ secondTokens) := by
  intro before
  rw [List.foldlM_append, reads before, List.reverse_append, List.append_assoc]
  exact next _

theorem Reads.readsUpTo {text : List Char} {tokens : List Token}
    (reads : Reads text tokens) : ReadsUpTo text tokens := by
  intro before ending _
  rw [List.foldlM_append, reads before, Option.bind_eq_bind, Option.bind_some,
    foldlM_step_singleton]

theorem ReadsUpTo.append {first second : List Char}
    {firstTokens secondTokens : List Token}
    (reads : ReadsUpTo first firstTokens) (closes : Closes second secondTokens) :
    Reads (first ++ second) (firstTokens ++ secondTokens) := by
  intro before
  obtain ⟨⟨ending, rest, rfl, ends⟩, next⟩ := closes
  rw [List.append_cons, List.foldlM_append, reads before ending ends,
    ← List.foldlM_cons, next, List.reverse_append, List.append_assoc]

/-! ## Single tokens -/

theorem reads_blank (character : Char) (blank : isBlank character = true) :
    Reads [character] [] := by
  intro before
  rw [foldlM_step_singleton, Lexer.step, Lexer.stepBetween, if_pos blank]
  rfl

theorem reads_blanks {text : List Char}
    (blank : ∀ character ∈ text, isBlank character = true) : Reads text [] := by
  induction text with
  | nil => exact reads_nil
  | cons character text ih =>
      exact (reads_blank character (blank character List.mem_cons_self)).append
        (ih fun other member => blank other (List.mem_cons_of_mem _ member))

theorem reads_punctuation {character : Char} {token : Token}
    (punctuation : Lexer.punctuation? character = some token) :
    Reads [character] [token] := by
  intro before
  have plain : isBlank character = false ∧ character ≠ '"' := by
    constructor
    · by_contra blank
      rw [Bool.not_eq_false, isBlank] at blank
      simp only [Bool.or_eq_true, decide_eq_true_eq] at blank
      rcases blank with ((rfl | rfl) | rfl) | rfl <;> cases punctuation
    · rintro rfl
      cases punctuation
  rw [foldlM_step_singleton, Lexer.step, Lexer.stepBetween,
    if_neg (by simp [plain.1]), if_neg plain.2, punctuation]
  rfl

theorem endsRun_of_punctuation {character : Char} {token : Token}
    (punctuation : Lexer.punctuation? character = some token) :
    Lexer.endsRun character = true := by
  rw [Lexer.endsRun, punctuation]
  exact Bool.or_true _

/-! ## Texts -/

theorem hexValue?_hexDigit : ∀ value < 16,
    hexValue? (hexDigit value) = some value := by
  decide

/-- Every character is read back from what is written for it. -/
theorem foldlM_writtenCharacter (character : Char) (units : List TextUnit)
    (before : List Token) :
    (writtenCharacter character).foldlM Lexer.step ⟨.text units, before⟩ =
      some ⟨.text (.character character :: units), before⟩ := by
  unfold writtenCharacter
  split
  · next quote => rw [quote]; rfl
  split
  · next backslash => rw [backslash]; rfl
  split
  · next backspace => rw [backspace]; rfl
  split
  · next formFeed => rw [formFeed]; rfl
  split
  · next lineFeed => rw [lineFeed]; rfl
  split
  · next carriageReturn => rw [carriageReturn]; rfl
  split
  · next tabulator => rw [tabulator]; rfl
  split
  · next control =>
      have high := hexValue?_hexDigit (character.toNat / 16) (by omega)
      have low := hexValue?_hexDigit (character.toNat % 16) (by omega)
      have code : character.toNat / 16 * 16 + character.toNat % 16 =
          character.toNat := by
        omega
      have unit : unitOfCode character.toNat = .character character := by
        rw [unitOfCode, if_neg (by omega), Char.ofNat_toNat]
      have zero : hexValue? '0' = some 0 := rfl
      change ['0', '0', hexDigit (character.toNat / 16),
        hexDigit (character.toNat % 16)].foldlM Lexer.step
          ⟨.hex units 0 0, before⟩ = _
      simp [Lexer.step_hex zero, Lexer.step_hex high, Lexer.step_lastHex low,
        code, unit]
  · next quote backslash _ _ _ _ _ control =>
      rw [foldlM_step_singleton, Lexer.step_text quote backslash control]

/-- The characters of a text up to its closing quote. -/
theorem foldlM_flatMap_writtenCharacter (characters : List Char)
    (units : List TextUnit) (before : List Token) :
    (characters.flatMap writtenCharacter).foldlM Lexer.step
        ⟨.text units, before⟩ =
      some ⟨.text ((characters.map .character).reverse ++ units), before⟩ := by
  induction characters generalizing units with
  | nil => rfl
  | cons character characters ih =>
      rw [List.flatMap_cons, List.foldlM_append, foldlM_writtenCharacter,
        List.map_cons, List.reverse_cons, List.append_assoc]
      exact ih _

theorem reads_writtenText (text : String) :
    Reads (writtenText text) [.text (unitsOf text)] := by
  intro before
  have inside := foldlM_flatMap_writtenCharacter text.toList [] before
  rw [List.append_nil] at inside
  rw [writtenText, List.foldlM_cons]
  change (text.toList.flatMap writtenCharacter ++ ['"']).foldlM Lexer.step
    ⟨.text [], before⟩ = _
  rw [List.foldlM_append, inside, Option.bind_eq_bind, Option.bind_some,
    foldlM_step_singleton, Lexer.step_quote, List.reverse_reverse]
  rfl

/-! ## Bare runs -/

theorem foldlM_bare {text : List Char}
    (inside : text.any Lexer.endsRun = false)
    (run : List Char) (before : List Token) :
    text.foldlM Lexer.step ⟨.bare run, before⟩ =
      some ⟨.bare (text.reverse ++ run), before⟩ := by
  induction text generalizing run with
  | nil => rfl
  | cons character text ih =>
      rw [List.any_cons, Bool.or_eq_false_iff] at inside
      rw [List.foldlM_cons, Lexer.step_bare, if_neg (by simp [inside.1]),
        List.reverse_cons, List.append_assoc]
      exact ih inside.2 _

theorem readsUpTo_bare {text : List Char} {token : Token}
    (nonempty : text ≠ []) (inside : text.any Lexer.endsRun = false)
    (bare : bareToken? text = some token) : ReadsUpTo text [token] := by
  intro before ending ends
  cases text with
  | nil => exact absurd rfl nonempty
  | cons character text =>
      rw [List.any_cons, Bool.or_eq_false_iff] at inside
      obtain ⟨plain, later⟩ := inside
      simp only [Lexer.endsRun, Bool.or_eq_false_iff, decide_eq_false_iff_not,
        Option.isSome_eq_false_iff, Option.isNone_iff_eq_none] at plain
      obtain ⟨⟨notBlank, notQuote⟩, notPunctuation⟩ := plain
      have starts : Lexer.step ⟨.between, before⟩ character =
          some ⟨.bare [character], before⟩ := by
        rw [Lexer.step_between, Lexer.stepBetween, if_neg (by simp [notBlank]),
          if_neg notQuote, notPunctuation]
      have run := foldlM_bare later [character] before
      rw [List.cons_append, List.foldlM_cons, starts, Option.bind_eq_bind,
        Option.bind_some, List.foldlM_append, run, Option.bind_eq_bind,
        Option.bind_some, foldlM_step_singleton, Lexer.step_bare, if_pos ends,
        List.reverse_append, List.reverse_reverse, List.reverse_singleton,
        List.singleton_append, bare]
      rfl

end Json

end ProxyLint
