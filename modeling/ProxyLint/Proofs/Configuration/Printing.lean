import ProxyLint.Configuration.Written
import ProxyLint.Proofs.Configuration.LineCount
import ProxyLint.Proofs.Configuration.Parsing

/-!
# Printed configurations

A configuration may be printed in many ways.  Each word is put into double
quotes or single quotes, or stands bare if the lexer cannot take it for
anything else, and blanks and comments follow each token.  The lexer reads the
tokens back one chunk at a time, where a chunk is a token with what follows it.
-/

namespace ProxyLint

/-- Put a backslash before every backslash and before every quotation mark of
the given kind. -/
def escapedFor (quote : Char) (word : List Char) : List Char :=
  word.flatMap fun character =>
    if character = quote ∨ character = '\\' then ['\\', character]
    else [character]

/-- The ways to print a token. -/
inductive PrintedToken : Token → List Char → Prop where
  | quoted (quote : Char) (mark : quote = '"' ∨ quote = '\'') (word : String) :
      PrintedToken (.word word)
        (quote :: (escapedFor quote word.toList ++ [quote]))
  | bare {first : Char} {rest : List Char} (word : String)
      (spelled : word.toList = first :: rest)
      (plain : first ∉ ['"', '\'', '#'])
      (whole : (first :: rest).any isDelimiter = false) :
      PrintedToken (.word word) (first :: rest)
  | semicolon : PrintedToken .semicolon [';']
  | opening : PrintedToken .opening ['{']
  | closing : PrintedToken .closing ['}']

/-- Blanks and comments that end before the next line. -/
inductive Filler : List Char → Prop where
  | empty : Filler []
  | blank {character : Char} {text : List Char}
      (white : Text.isBlank character = true) (rest : Filler text) :
      Filler (character :: text)
  | comment {note text : List Char} (oneLine : '\n' ∉ note)
      (rest : Filler text) : Filler ('#' :: (note ++ '\n' :: text))

/-- The ways to print some tokens.  A blank and perhaps more filler stand
behind each of them. -/
inductive PrintedTokens : List Token → List Char → Prop where
  | empty : PrintedTokens [] []
  | token {token : Token} {tokens : List Token} {own gap text : List Char}
      {blank : Char} (printed : PrintedToken token own)
      (white : Text.isBlank blank = true) (filler : Filler gap)
      (rest : PrintedTokens tokens text) :
      PrintedTokens (token :: tokens) (own ++ blank :: (gap ++ text))

mutual

/-- The tokens of an item in document order. -/
def ConfigItem.tokens : ConfigItem → List Token
  | .simple name arguments => wordTokens name arguments ++ [.semicolon]
  | .block name arguments body =>
      wordTokens name arguments ++
        .opening :: (documentTokens body ++ [.closing])

/-- The tokens of some items in document order. -/
def documentTokens : List ConfigItem → List Token
  | [] => []
  | item :: items => item.tokens ++ documentTokens items

end

/-- The text prints the items. -/
def Prints (text : String) (items : List ConfigItem) : Prop :=
  PrintedTokens (documentTokens items) text.toList

/-- The tokens in document order are derived from the grammar. -/
theorem configText_documentTokens :
    ∀ items : List ConfigItem, ConfigText items (documentTokens items)
  | [] => .empty
  | .simple name arguments :: items => by
      have rest := configText_documentTokens items
      simpa [documentTokens, ConfigItem.tokens] using
        ConfigText.simple name arguments rest
  | .block name arguments body :: items => by
      have inside := configText_documentTokens body
      have rest := configText_documentTokens items
      simpa [documentTokens, ConfigItem.tokens] using
        ConfigText.block name arguments inside rest

/-- Every token can be printed, since every word can be quoted. -/
theorem PrintedToken.exists_printed (token : Token) :
    ∃ own, PrintedToken token own := by
  cases token with
  | word text => exact ⟨_, .quoted '"' (.inl rfl) text⟩
  | semicolon => exact ⟨_, .semicolon⟩
  | opening => exact ⟨_, .opening⟩
  | closing => exact ⟨_, .closing⟩

theorem PrintedTokens.exists_printed (tokens : List Token) :
    ∃ text, PrintedTokens tokens text := by
  induction tokens with
  | nil => exact ⟨[], .empty⟩
  | cons token tokens ih =>
      obtain ⟨own, printed⟩ := PrintedToken.exists_printed token
      obtain ⟨text, rest⟩ := ih
      have white : Text.isBlank ' ' = true := rfl
      exact ⟨_, .token printed white .empty rest⟩

theorem isBlank_of_isDelimiter_eq_false {character : Char}
    (inside : isDelimiter character = false) :
    Text.isBlank character = false ∧ character ≠ ';' ∧ character ≠ '{' ∧
      character ≠ '}' := by
  simpa [isDelimiter, and_assoc] using inside

namespace Lexer

/-- The lexer stands between two tokens and has read the given ones. -/
structure HasRead (lexer : Lexer) (read : List Token) : Prop where
  mode : lexer.mode = .between
  tokens : lexer.tokens.map LocatedToken.token = read.reverse

theorem hasRead_emit {lexer : Lexer} {read : List Token}
    (before : lexer.tokens.map LocatedToken.token = read.reverse)
    (token : Token) (line : Nat) :
    (lexer.emit token line).HasRead (read ++ [token]) where
  mode := rfl
  tokens := by
    rw [List.reverse_append, ← before]
    rfl

theorem stepBetween_blank (lexer : Lexer) {blank : Char}
    (white : Text.isBlank blank = true) :
    lexer.stepBetween blank = lexer.countLine blank := by
  unfold stepBetween
  exact if_pos white

/-- A blank between two tokens leaves no trace but the line. -/
theorem HasRead.blank {lexer : Lexer} {read : List Token}
    (before : lexer.HasRead read) {blank : Char}
    (white : Text.isBlank blank = true) :
    (lexer.stepBetween blank).HasRead read where
  mode := by
    rw [stepBetween_blank lexer white, countLine_eq]
    exact before.mode
  tokens := by
    rw [stepBetween_blank lexer white, countLine_eq]
    exact before.tokens

theorem step_between {lexer : Lexer} (idle : lexer.mode = .between)
    (character : Char) :
    lexer.step character = lexer.stepBetween character := by
  simp only [step, idle]

theorem foldl_step_comment {lexer : Lexer} (inComment : lexer.mode = .comment)
    {note : List Char} (oneLine : '\n' ∉ note) :
    note.foldl step lexer = lexer := by
  induction note with
  | nil => rfl
  | cons character note ih =>
      have other : character ≠ '\n' := by
        rintro rfl
        exact oneLine List.mem_cons_self
      have stepped : lexer.step character = lexer := by
        simp only [step, inComment, if_neg other]
      rw [List.foldl_cons, stepped]
      exact ih fun member => oneLine (List.mem_cons_of_mem _ member)

/-- Filler gives no token. -/
theorem HasRead.filler {lexer : Lexer} {read : List Token}
    (before : lexer.HasRead read) {gap : List Char} (filler : Filler gap) :
    (gap.foldl step lexer).HasRead read := by
  induction filler generalizing lexer with
  | empty => exact before
  | blank white _ ih =>
      rw [List.foldl_cons, step_between before.mode]
      exact ih (before.blank white)
  | @comment note text oneLine _ ih =>
      have opened : lexer.step '#' = { lexer with mode := .comment } := by
        rw [step_between before.mode]
        rfl
      have ended : ({ lexer with mode := .comment } : Lexer).step '\n' =
          { lexer with mode := .between, line := lexer.line + 1 } :=
        rfl
      rw [List.foldl_cons, opened, List.foldl_append,
        foldl_step_comment rfl oneLine, List.foldl_cons, ended]
      exact ih ⟨rfl, before.tokens⟩

theorem step_quoted {lexer : Lexer} {quote : Char} {startLine : Nat}
    {word : List Char} (inQuotes : lexer.mode = .quoted quote startLine word)
    {character : Char} (inside : character ≠ quote)
    (unescaped : character ≠ '\\') :
    lexer.step character =
      { lexer.countLine character with
        mode := .quoted quote startLine (character :: word) } := by
  simp only [step, inQuotes, if_neg inside, if_neg unescaped]

/-- A backslash and the character that it protects. -/
theorem step_escaped {lexer : Lexer} {quote : Char} {startLine : Nat}
    {word : List Char} (inQuotes : lexer.mode = .quoted quote startLine word)
    (mark : quote ≠ '\\') {character : Char}
    (guarded : character = quote ∨ character = '\\') :
    (lexer.step '\\').step character =
      { lexer with mode := .quoted quote startLine (character :: word) } := by
  have escaping : lexer.step '\\' =
      { lexer with mode := .escaped quote startLine word } := by
    simp only [step, inQuotes, if_neg mark.symm, if_pos]
  rw [escaping]
  simp only [step, if_pos guarded]

/-- What was escaped for the quotes is read as it was. -/
theorem foldl_step_escapedFor {lexer : Lexer} {quote : Char} {startLine : Nat}
    {word : List Char} (inQuotes : lexer.mode = .quoted quote startLine word)
    (mark : quote ≠ '\\') (further : List Char) :
    ((escapedFor quote further).foldl step lexer).mode =
        .quoted quote startLine (further.reverse ++ word) ∧
      ((escapedFor quote further).foldl step lexer).tokens = lexer.tokens := by
  induction further generalizing lexer word with
  | nil => exact ⟨inQuotes, rfl⟩
  | cons character further ih =>
      rw [escapedFor, List.flatMap_cons, List.foldl_append, ← escapedFor,
        List.reverse_cons, List.append_assoc, List.singleton_append]
      split
      next guarded =>
        rw [List.foldl_cons, List.foldl_cons, List.foldl_nil,
          step_escaped inQuotes mark guarded]
        exact ih rfl
      next free =>
        obtain ⟨inside, unescaped⟩ := not_or.1 free
        rw [List.foldl_cons, List.foldl_nil,
          step_quoted inQuotes inside unescaped, countLine_eq]
        exact ih rfl

/-- A bare word goes on over any characters that are no delimiters. -/
theorem foldl_step_bare {lexer : Lexer} {word : List Char}
    (inWord : lexer.mode = .bare word) {further : List Char}
    (whole : further.any isDelimiter = false) :
    further.foldl step lexer =
      { lexer with mode := .bare (further.reverse ++ word) } := by
  induction further generalizing lexer word with
  | nil =>
      rw [List.reverse_nil, List.nil_append, ← inWord]
      rfl
  | cons character further ih =>
      rw [List.any_cons, Bool.or_eq_false_iff] at whole
      obtain ⟨free, freeFurther⟩ := whole
      obtain ⟨visible, noSemicolon, noOpening, noClosing⟩ :=
        isBlank_of_isDelimiter_eq_false free
      have stepped : lexer.step character =
          { lexer with mode := .bare (character :: word) } := by
        simp [step, inWord, endsBareWord, visible, noSemicolon, noOpening,
          noClosing]
      rw [List.foldl_cons, stepped, ih rfl freeFurther, List.reverse_cons,
        List.append_assoc, List.singleton_append]

theorem stepBetween_plain (lexer : Lexer) {character : Char}
    (inside : isDelimiter character = false)
    (plain : character ∉ ['"', '\'', '#']) :
    lexer.stepBetween character = { lexer with mode := .bare [character] } := by
  obtain ⟨visible, noSemicolon, noOpening, noClosing⟩ :=
    isBlank_of_isDelimiter_eq_false inside
  simp only [List.mem_cons, List.not_mem_nil, or_false, not_or] at plain
  unfold stepBetween
  rw [visible]
  split
  next => contradiction
  next => grind

/-- A token that needs one character only. -/
theorem HasRead.sign {lexer : Lexer} {read : List Token}
    (before : lexer.HasRead read) {character : Char} {token : Token}
    (sign : lexer.stepBetween character = lexer.emit token lexer.line)
    {blank : Char} (white : Text.isBlank blank = true) :
    ((lexer.step character).step blank).HasRead (read ++ [token]) := by
  have emitted := hasRead_emit before.tokens token lexer.line
  rw [step_between before.mode, sign, step_between emitted.mode]
  exact emitted.blank white

theorem HasRead.quoted {lexer : Lexer} {read : List Token}
    (before : lexer.HasRead read) {quote : Char}
    (mark : quote = '"' ∨ quote = '\'') (word : String) {blank : Char}
    (white : Text.isBlank blank = true) :
    (((quote :: (escapedFor quote word.toList ++ [quote])).foldl step
      lexer).step blank).HasRead (read ++ [.word word]) := by
  have noBackslash : quote ≠ '\\' := by
    rintro rfl
    simp at mark
  let opened : Lexer := { lexer with mode := .quoted quote lexer.line [] }
  have opens : lexer.step quote = opened := by
    rw [step_between before.mode]
    rcases mark with rfl | rfl <;> rfl
  let inside := (escapedFor quote word.toList).foldl step opened
  obtain ⟨mode, same⟩ : inside.mode = .quoted quote lexer.line
        (word.toList.reverse ++ []) ∧ inside.tokens = lexer.tokens :=
    foldl_step_escapedFor rfl noBackslash word.toList
  have closes : inside.step quote = inside.emit (.word word) lexer.line := by
    simp [step, mode, emitWord]
  have emitted : (inside.emit (.word word) lexer.line).HasRead
      (read ++ [.word word]) :=
    hasRead_emit (same ▸ before.tokens) (.word word) lexer.line
  rw [List.foldl_cons, List.foldl_append, opens, List.foldl_cons,
    List.foldl_nil, closes, step_between emitted.mode]
  exact emitted.blank white

theorem HasRead.bare {lexer : Lexer} {read : List Token}
    (before : lexer.HasRead read) {first : Char} {rest : List Char}
    (plain : first ∉ ['"', '\'', '#'])
    (whole : (first :: rest).any isDelimiter = false) {blank : Char}
    (white : Text.isBlank blank = true) :
    (((first :: rest).foldl step lexer).step blank).HasRead
      (read ++ [.word (String.ofList (first :: rest))]) := by
  rw [List.any_cons, Bool.or_eq_false_iff] at whole
  obtain ⟨free, freeRest⟩ := whole
  let word := String.ofList (first :: rest)
  let inside : Lexer := { lexer with mode := .bare (rest.reverse ++ [first]) }
  have opens : lexer.step first = { lexer with mode := .bare [first] } := by
    rw [step_between before.mode]
    exact stepBetween_plain lexer free plain
  have goes : rest.foldl step { lexer with mode := .bare [first] } = inside :=
    foldl_step_bare rfl freeRest
  have ends : inside.step blank =
      (inside.emit (.word word) lexer.line).stepBetween blank := by
    simp [step, inside, endsBareWord, white, emitWord, word]
  rw [List.foldl_cons, opens, goes, ends]
  exact (hasRead_emit before.tokens (.word word) lexer.line).blank white

/-- A printed token and the blank behind it give the token. -/
theorem HasRead.printedToken {lexer : Lexer} {read : List Token}
    (before : lexer.HasRead read) {token : Token} {own : List Char}
    (printed : PrintedToken token own) {blank : Char}
    (white : Text.isBlank blank = true) :
    ((own.foldl step lexer).step blank).HasRead (read ++ [token]) := by
  cases printed with
  | quoted quote mark word => exact before.quoted mark word white
  | bare word spelled plain whole =>
      rw [← String.ofList_toList (s := word), spelled]
      exact before.bare plain whole white
  | semicolon => exact before.sign rfl white
  | opening => exact before.sign rfl white
  | closing => exact before.sign rfl white

/-- Token by token: a printed text is read back as it was printed. -/
theorem HasRead.printedTokens {lexer : Lexer} {read further : List Token}
    (before : lexer.HasRead read) {text : List Char}
    (printed : PrintedTokens further text) :
    (text.foldl step lexer).HasRead (read ++ further) := by
  induction printed generalizing lexer read with
  | empty =>
      rw [List.append_nil]
      exact before
  | @token token tokens own gap text blank printed white filler _ ih =>
      have chunk := (before.printedToken printed white).filler filler
      rw [List.foldl_append, List.foldl_cons, List.foldl_append,
        List.append_cons]
      exact ih chunk

end Lexer

theorem exists_tokens_of_printed {text : String} {printed : List Token}
    (prints : PrintedTokens printed text.toList) :
    ∃ located, tokens text = .ok located ∧
      located.map LocatedToken.token = printed := by
  have started : Lexer.start.HasRead [] := ⟨rfl, rfl⟩
  obtain ⟨mode, read⟩ := started.printedTokens prints
  refine ⟨(text.toList.foldl Lexer.step Lexer.start).tokens.reverse, ?_, ?_⟩
  · rw [tokens, Lexer.finish, mode]
  · rw [List.map_reverse, read, List.nil_append, List.reverse_reverse]

namespace ConfigTree

/-- Every configuration can be printed, and however it is printed, what is
read back is the same configuration, numbered in document order. -/
theorem parse_printed (items : List ConfigItem) :
    (∃ text, Prints text items) ∧
    ∀ text, Prints text items →
      ∃ tree, parse text = .ok tree ∧
        tree.Represents (tree.children root) items ∧
        tree.walk = List.range' 1 tree.size := by
  constructor
  · obtain ⟨characters, printed⟩ :=
      PrintedTokens.exists_printed (documentTokens items)
    refine ⟨String.ofList characters, ?_⟩
    rw [Prints, String.toList_ofList]
    exact printed
  · intro text prints
    obtain ⟨located, lexed, same⟩ := exists_tokens_of_printed prints
    have derived := configText_documentTokens items
    rw [← same] at derived
    obtain ⟨tree, accepted, represents⟩ := exists_tree_of_configText derived
    refine ⟨tree, ?_, represents⟩
    rw [parse, lexed]
    exact accepted

/-- Both kinds of quotes, a newline in quotes, a dollar sign at the end of a
bare word and a comment. -/
theorem quotedSite_reread :
    ∃ tree,
      parse "server \x7b 'it\\'s \\\\' \"\n\" a$ ; # on\n\x7d \"\" ; " = .ok tree ∧
      tree.Represents (tree.children root)
        [.block "server" [] [.simple "it's \\" ["\n", "a$"]],
          .simple "" []] ∧
      tree.walk = List.range' 1 tree.size := by
  have white : Text.isBlank ' ' = true := rfl
  have prints : Prints "server \x7b 'it\\'s \\\\' \"\n\" a$ ; # on\n\x7d \"\" ; "
      [.block "server" [] [.simple "it's \\" ["\n", "a$"]],
        .simple "" []] := by
    have server : PrintedToken (.word "server") "server".toList :=
      .bare "server" rfl (by decide) rfl
    have name : PrintedToken (.word "it's \\") "'it\\'s \\\\'".toList :=
      .quoted '\'' (.inr rfl) "it's \\"
    have newline : PrintedToken (.word "\n") "\"\n\"".toList :=
      .quoted '"' (.inl rfl) "\n"
    have dollar : PrintedToken (.word "a$") "a$".toList :=
      .bare "a$" rfl (by decide) rfl
    have nameless : PrintedToken (.word "") "\"\"".toList :=
      .quoted '"' (.inl rfl) ""
    have comment : Filler "# on\n".toList :=
      @Filler.comment [' ', 'o', 'n'] [] (by decide) .empty
    exact .token server white .empty <| .token .opening white .empty <|
      .token name white .empty <| .token newline white .empty <|
      .token dollar white .empty <| .token .semicolon white comment <|
      .token .closing white .empty <| .token nameless white .empty <|
      .token .semicolon white .empty .empty
  exact (parse_printed _).2 _ prints

end ConfigTree

end ProxyLint
