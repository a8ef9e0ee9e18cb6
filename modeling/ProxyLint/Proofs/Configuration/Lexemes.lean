import Mathlib.Data.List.TakeWhile
import ProxyLint.Proofs.Configuration.Printing

/-!
# The lexical grammar

A text is read from left to right as blanks, comments and tokens.  What a
token is spelled like is said here without the lexer: a quoted word up to the
quotation mark that closes it, a bare word up to what ends it.  Every token is
kept with the part of the text that stands before it.

Each text is either read to its end in this way, or the reading comes to a
quotation mark that nothing closes.  The lexer does the same and counts the
newlines in front of each token.
-/

namespace ProxyLint

/-- What stands between two quotation marks, and the word that it means.  A
backslash gives way only before a quotation mark of the same kind and before
another backslash. -/
inductive QuotedBody (quote : Char) : List Char → List Char → Prop where
  | empty : QuotedBody quote [] []
  | plain {character : Char} {body word : List Char}
      (inside : character ≠ quote) (unescaped : character ≠ '\\')
      (rest : QuotedBody quote body word) :
      QuotedBody quote (character :: body) (character :: word)
  | guarded {character : Char} {body word : List Char}
      (guarded : character = quote ∨ character = '\\')
      (rest : QuotedBody quote body word) :
      QuotedBody quote ('\\' :: character :: body) (character :: word)
  | kept {character : Char} {body word : List Char}
      (free : ¬ (character = quote ∨ character = '\\'))
      (rest : QuotedBody quote body word) :
      QuotedBody quote ('\\' :: character :: body) ('\\' :: character :: word)

/-- A text behind a quotation mark that does not close it. -/
inductive NeverCloses (quote : Char) : List Char → Prop where
  | empty : NeverCloses quote []
  | plain {character : Char} {text : List Char}
      (inside : character ≠ quote) (unescaped : character ≠ '\\')
      (rest : NeverCloses quote text) : NeverCloses quote (character :: text)
  | escape {text : List Char} (character : Char)
      (rest : NeverCloses quote text) :
      NeverCloses quote ('\\' :: character :: text)
  | backslash : NeverCloses quote ['\\']

/-- Nothing is left of the line. -/
def AtLineEnd (ahead : List Char) : Prop :=
  ∀ character ∈ ahead.head?, character = '\n'

/-- The characters before which a bare word ends.  An opening brace ends it
unless a dollar sign stands in front of the brace. -/
def EndsWord (previous character : Char) : Prop :=
  Text.isBlank character = true ∨ character = ';' ∨ character = '}' ∨
    (character = '{' ∧ previous ≠ '$')

/-- How a bare word goes on behind a character of it, and the text ahead at
which it ends.  A brace behind a dollar sign opens a group that goes on to the
next closing brace of the line. -/
inductive BareTail : Char → List Char → List Char → Prop where
  | done {previous : Char} {ahead : List Char}
      (ended : ∀ character ∈ ahead.head?, EndsWord previous character) :
      BareTail previous [] ahead
  | plain {previous character : Char} {own ahead : List Char}
      (inside : isDelimiter character = false)
      (rest : BareTail character own ahead) :
      BareTail previous (character :: own) ahead
  | group {inner own ahead : List Char} (oneLine : '\n' ∉ inner)
      (unclosed : '}' ∉ inner) (rest : BareTail '}' own ahead) :
      BareTail '$' ('{' :: (inner ++ '}' :: own)) ahead
  | openGroup {inner ahead : List Char} (oneLine : '\n' ∉ inner)
      (unclosed : '}' ∉ inner) (ended : AtLineEnd ahead) :
      BareTail '$' ('{' :: inner) ahead

/-- How a token is spelled in front of the text ahead. -/
inductive Spells : Token → List Char → List Char → Prop where
  | semicolon (ahead : List Char) : Spells .semicolon [';'] ahead
  | opening (ahead : List Char) : Spells .opening ['{'] ahead
  | closing (ahead : List Char) : Spells .closing ['}'] ahead
  | quoted {quote : Char} {body word : List Char}
      (mark : quote = '"' ∨ quote = '\'') (inside : QuotedBody quote body word)
      (ahead : List Char) :
      Spells (.word (String.ofList word)) (quote :: (body ++ [quote])) ahead
  | bare {first : Char} {own ahead : List Char}
      (inside : isDelimiter first = false)
      (plain : first ∉ ['"', '\'', '#']) (rest : BareTail first own ahead) :
      Spells (.word (String.ofList (first :: own))) (first :: own) ahead

/-- A token with the part of the text before its first character. -/
structure PlacedToken where
  token : Token
  before : List Char

/-- A token stands on the line after as many newlines as there are before it. -/
def PlacedToken.located (placed : PlacedToken) : LocatedToken where
  token := placed.token
  line := 1 + placed.before.count '\n'

/-- The part of a text that has been read, the tokens in it and the text
ahead. -/
inductive Lexed : List Char → List PlacedToken → List Char → Prop where
  | start (text : List Char) : Lexed [] [] text
  | blank {read ahead : List Char} {placed : List PlacedToken}
      {character : Char} (before : Lexed read placed (character :: ahead))
      (white : Text.isBlank character = true) :
      Lexed (read ++ [character]) placed ahead
  | comment {read note ahead : List Char} {placed : List PlacedToken}
      (before : Lexed read placed ('#' :: (note ++ ahead)))
      (oneLine : '\n' ∉ note) (ended : AtLineEnd ahead) :
      Lexed (read ++ '#' :: note) placed ahead
  | token {read own ahead : List Char} {placed : List PlacedToken}
      {token : Token} (before : Lexed read placed (own ++ ahead))
      (spelled : Spells token own ahead) :
      Lexed (read ++ own) (placed ++ [⟨token, read⟩]) ahead

/-- Behind the part that has been read a quotation mark opens a string that
runs to the end of the text. -/
def RunsOut (text read : List Char) : Prop :=
  ∃ placed quote rest, text = read ++ quote :: rest ∧
    (quote = '"' ∨ quote = '\'') ∧ Lexed read placed (quote :: rest) ∧
      NeverCloses quote rest

theorem ne_newline_of_isDelimiter_eq_false {character : Char}
    (inside : isDelimiter character = false) : character ≠ '\n' := by
  rintro rfl
  cases inside

theorem ne_backslash_of_mark {quote : Char}
    (mark : quote = '"' ∨ quote = '\'') : quote ≠ '\\' := by
  rintro rfl
  simp at mark

/-- A bare word stays on its line. -/
theorem BareTail.newline_not_mem {previous : Char} {own ahead : List Char}
    (tail : BareTail previous own ahead) : '\n' ∉ own := by
  induction tail with
  | done _ => exact List.not_mem_nil
  | plain inside _ ih =>
      have other := ne_newline_of_isDelimiter_eq_false inside
      simp [other.symm, ih]
  | group oneLine _ _ ih => simp [oneLine, ih]
  | openGroup oneLine _ _ => simp [oneLine]

/-- Every token is spelled where it was read. -/
theorem Lexed.spelled_of_mem {read ahead : List Char}
    {placed : List PlacedToken} (lexed : Lexed read placed ahead) :
    ∀ token ∈ placed, ∃ own rest,
      read ++ ahead = token.before ++ (own ++ rest) ∧
        Spells token.token own rest := by
  induction lexed with
  | start text => simp
  | blank _ _ ih => simpa using ih
  | comment _ _ _ ih => simpa using ih
  | @token read own ahead placed token _ spelled ih =>
      intro other member
      rw [List.append_assoc]
      rcases List.mem_append.1 member with older | newest
      · exact ih other older
      · obtain rfl := List.mem_singleton.1 newest
        exact ⟨own, ahead, rfl, spelled⟩

namespace Lexer

theorem step_backslash {lexer : Lexer} {quote : Char} {startLine : Nat}
    {word : List Char} (inQuotes : lexer.mode = .quoted quote startLine word)
    (mark : quote ≠ '\\') :
    lexer.step '\\' = { lexer with mode := .escaped quote startLine word } := by
  simp only [step, inQuotes, if_neg mark.symm, if_pos]

/-- A backslash that protects nothing is part of the word. -/
theorem step_kept {lexer : Lexer} {quote : Char} {startLine : Nat}
    {word : List Char} (inQuotes : lexer.mode = .quoted quote startLine word)
    (mark : quote ≠ '\\') {character : Char}
    (free : ¬ (character = quote ∨ character = '\\')) :
    (lexer.step '\\').step character =
      { lexer with
        line := lexer.line + lineStep character
        mode := .quoted quote startLine (character :: '\\' :: word) } := by
  rw [step_backslash inQuotes mark]
  simp only [step, if_neg free, countLine_eq]

theorem foldl_step_quotedBody {lexer : Lexer} {quote : Char} {startLine : Nat}
    {word : List Char} (inQuotes : lexer.mode = .quoted quote startLine word)
    (mark : quote ≠ '\\') {body further : List Char}
    (inside : QuotedBody quote body further) :
    (body.foldl step lexer).mode =
        .quoted quote startLine (further.reverse ++ word) ∧
      (body.foldl step lexer).tokens = lexer.tokens := by
  induction inside generalizing lexer word with
  | empty => exact ⟨inQuotes, rfl⟩
  | plain inside unescaped _ ih =>
      rw [List.foldl_cons, step_quoted inQuotes inside unescaped, countLine_eq,
        List.reverse_cons, List.append_assoc]
      exact ih rfl
  | guarded guarded _ ih =>
      rw [List.foldl_cons, List.foldl_cons, step_escaped inQuotes mark guarded,
        List.reverse_cons, List.append_assoc]
      exact ih rfl
  | kept free _ ih =>
      rw [List.foldl_cons, List.foldl_cons, step_kept inQuotes mark free,
        List.reverse_cons, List.reverse_cons, List.append_assoc,
        List.append_assoc]
      exact ih rfl

/-- A string that nothing closes is reported where it was opened. -/
theorem finish_of_neverCloses {lexer : Lexer} {quote : Char} {startLine : Nat}
    {word : List Char} (inQuotes : lexer.mode = .quoted quote startLine word)
    (mark : quote ≠ '\\') {text : List Char}
    (unclosed : NeverCloses quote text) :
    (text.foldl step lexer).finish =
      .error ⟨.unterminatedQuote, startLine⟩ := by
  induction unclosed generalizing lexer word with
  | empty => rw [List.foldl_nil, finish, inQuotes]
  | plain inside unescaped _ ih =>
      rw [List.foldl_cons, step_quoted inQuotes inside unescaped]
      exact ih rfl
  | escape character _ ih =>
      rw [List.foldl_cons, List.foldl_cons]
      by_cases guarded : character = quote ∨ character = '\\'
      · rw [step_escaped inQuotes mark guarded]
        exact ih rfl
      · rw [step_kept inQuotes mark guarded]
        exact ih rfl
  | backslash =>
      rw [List.foldl_cons, step_backslash inQuotes mark]
      rfl

/-- The lexer takes a word to be complete when it reads what ends it. -/
theorem finish_of_endsWord {lexer : Lexer} {previous : Char} {word : List Char}
    (inWord : lexer.mode = .bare (previous :: word)) {ahead : List Char}
    (ended : ∀ character ∈ ahead.head?, EndsWord previous character) :
    (ahead.foldl step lexer).finish =
      (ahead.foldl step
        (lexer.emitWord (previous :: word) lexer.line)).finish := by
  cases ahead with
  | nil => simp [finish, inWord, emitWord, emit]
  | cons character ahead =>
      have ends : endsBareWord (previous :: word) character = true := by
        have ended : EndsWord previous character := ended character rfl
        simpa [EndsWord, endsBareWord, or_assoc] using ended
      have stepped : lexer.step character =
          (lexer.emitWord (previous :: word) lexer.line).step character := by
        simp only [step, inWord, if_pos ends, emitWord, emit]
      rw [List.foldl_cons, stepped, List.foldl_cons]

/-- An open group ends with its line. -/
theorem finish_of_atLineEnd {lexer : Lexer} {word : List Char}
    (inGroup : lexer.mode = .braced word) {ahead : List Char}
    (ended : AtLineEnd ahead) :
    (ahead.foldl step lexer).finish =
      (ahead.foldl step (lexer.emitWord word lexer.line)).finish := by
  cases ahead with
  | nil => simp [finish, inGroup, emitWord, emit]
  | cons character ahead =>
      have newline : character = '\n' := ended character rfl
      have stepped : lexer.step character =
          (lexer.emitWord word lexer.line).step character := by
        simp only [step, inGroup, if_pos newline, emitWord, emit]
      rw [List.foldl_cons, stepped, List.foldl_cons]

theorem foldl_step_group {lexer : Lexer} {word : List Char}
    (inGroup : lexer.mode = .braced word) {inner : List Char}
    (oneLine : '\n' ∉ inner) (unclosed : '}' ∉ inner) :
    inner.foldl step lexer =
      { lexer with mode := .braced (inner.reverse ++ word) } := by
  induction inner generalizing lexer word with
  | nil =>
      rw [List.reverse_nil, List.nil_append, ← inGroup]
      rfl
  | cons character inner ih =>
      rw [List.mem_cons, not_or] at oneLine unclosed
      have stepped : lexer.step character =
          { lexer with mode := .braced (character :: word) } := by
        simp only [step, inGroup, if_neg (Ne.symm oneLine.1),
          if_neg (Ne.symm unclosed.1)]
      rw [List.foldl_cons, stepped, ih rfl oneLine.2 unclosed.2,
        List.reverse_cons, List.append_assoc]
      rfl

theorem step_openGroup {lexer : Lexer} {word : List Char}
    (inWord : lexer.mode = .bare ('$' :: word)) :
    lexer.step '{' = { lexer with mode := .braced ('{' :: '$' :: word) } := by
  simp only [step, inWord]
  rfl

/-- A bare word is read to its end, whatever stands ahead. -/
theorem finish_of_bareTail {lexer : Lexer} {previous : Char}
    {word own ahead : List Char} (tail : BareTail previous own ahead)
    (inWord : lexer.mode = .bare (previous :: word)) :
    ((own ++ ahead).foldl step lexer).finish =
      (ahead.foldl step (lexer.emitWord
        (own.reverse ++ previous :: word) lexer.line)).finish := by
  induction tail generalizing lexer word with
  | done ended => exact finish_of_endsWord inWord ended
  | @plain previous character own ahead inside _ ih =>
      obtain ⟨visible, noSemicolon, noOpening, noClosing⟩ :=
        isBlank_of_isDelimiter_eq_false inside
      have stepped : lexer.step character =
          { lexer with mode := .bare (character :: previous :: word) } := by
        simp [step, inWord, endsBareWord, visible, noSemicolon, noOpening,
          noClosing]
      rw [List.cons_append, List.foldl_cons, stepped, ih rfl,
        List.reverse_cons, List.append_assoc]
      rfl
  | @group inner own ahead oneLine unclosed _ ih =>
      let opened : Lexer := { lexer with mode := .braced ('{' :: '$' :: word) }
      let filled : Lexer :=
        { lexer with mode := .braced (inner.reverse ++ '{' :: '$' :: word) }
      let closed : Lexer :=
        { lexer with
          mode := .bare ('}' :: (inner.reverse ++ '{' :: '$' :: word)) }
      have opens : lexer.step '{' = opened := step_openGroup inWord
      have fills : inner.foldl step opened = filled :=
        foldl_step_group rfl oneLine unclosed
      have closes : filled.step '}' = closed := rfl
      rw [List.cons_append, List.foldl_cons, opens, List.append_assoc,
        List.foldl_append, fills, List.cons_append, List.foldl_cons, closes,
        ih rfl]
      simp [closed, emitWord, emit]
  | @openGroup inner ahead oneLine unclosed ended =>
      let opened : Lexer := { lexer with mode := .braced ('{' :: '$' :: word) }
      have opens : lexer.step '{' = opened := step_openGroup inWord
      rw [List.cons_append, List.foldl_cons, opens, List.foldl_append,
        foldl_step_group rfl oneLine unclosed, finish_of_atLineEnd rfl ended]
      simp [opened, emitWord, emit]

/-- A quoted word is read up to the mark that closes it, and starts on the line
of the mark that opens it. -/
theorem foldl_step_quotedWord {lexer : Lexer} (idle : lexer.mode = .between)
    {quote : Char} (mark : quote = '"' ∨ quote = '\'') {body word : List Char}
    (inside : QuotedBody quote body word) :
    (quote :: (body ++ [quote])).foldl step lexer =
      ({ lexer with
        line := lexer.line + (quote :: (body ++ [quote])).count '\n' }.emit
          (.word (String.ofList word)) lexer.line) := by
  let opened : Lexer := { lexer with mode := .quoted quote lexer.line [] }
  have opens : lexer.step quote = opened := by
    rw [step_between idle]
    rcases mark with rfl | rfl <;> rfl
  let filled := body.foldl step opened
  obtain ⟨mode, same⟩ : filled.mode =
        .quoted quote lexer.line (word.reverse ++ []) ∧
      filled.tokens = lexer.tokens :=
    foldl_step_quotedBody rfl (ne_backslash_of_mark mark) inside
  have closes : filled.step quote =
      filled.emit (.word (String.ofList word)) lexer.line := by
    simp [step, mode, emitWord]
  have read : (quote :: (body ++ [quote])).foldl step lexer =
      filled.emit (.word (String.ofList word)) lexer.line := by
    rw [List.foldl_cons, opens, List.foldl_append, List.foldl_cons,
      List.foldl_nil, closes]
  have marked : lexer.mode.Marked := by
    rw [idle]
    trivial
  have counted := (foldl_step_counts marked (quote :: (body ++ [quote]))).2
  rw [read] at counted
  rw [read, ← counted, emit, emit, same]

theorem finish_of_bareWord {lexer : Lexer} (idle : lexer.mode = .between)
    {first : Char} {own ahead : List Char}
    (inside : isDelimiter first = false) (plain : first ∉ ['"', '\'', '#'])
    (tail : BareTail first own ahead) :
    ((first :: own ++ ahead).foldl step lexer).finish =
      (ahead.foldl step (lexer.emit
        (.word (String.ofList (first :: own))) lexer.line)).finish := by
  let opened : Lexer := { lexer with mode := .bare [first] }
  have opens : lexer.step first = opened := by
    rw [step_between idle]
    exact stepBetween_plain lexer inside plain
  rw [List.cons_append, List.foldl_cons, opens, finish_of_bareTail tail rfl]
  simp [opened, emitWord, emit]

/-- One token is read as it is spelled, and the newlines in it are counted
behind it. -/
theorem finish_of_spells {lexer : Lexer} (idle : lexer.mode = .between)
    {token : Token} {own ahead : List Char} (spelled : Spells token own ahead) :
    ((own ++ ahead).foldl step lexer).finish =
      (ahead.foldl step ({ lexer with
        line := lexer.line + own.count '\n' }.emit token lexer.line)).finish := by
  cases spelled with
  | semicolon =>
      rw [List.cons_append, List.foldl_cons, step_between idle]
      rfl
  | opening =>
      rw [List.cons_append, List.foldl_cons, step_between idle]
      rfl
  | closing =>
      rw [List.cons_append, List.foldl_cons, step_between idle]
      rfl
  | quoted mark inside =>
      rw [List.foldl_append, foldl_step_quotedWord idle mark inside]
  | @bare first own _ inside plain tail =>
      have oneLine : (first :: own).count '\n' = 0 := by
        have other := ne_newline_of_isDelimiter_eq_false inside
        rw [List.count_eq_zero, List.mem_cons, not_or]
        exact ⟨other.symm, tail.newline_not_mem⟩
      rw [finish_of_bareWord idle inside plain tail, oneLine]
      rfl

/-- Where the lexer stands when it has read some tokens. -/
def standing (read : List Char) (placed : List PlacedToken) : Lexer where
  line := 1 + read.count '\n'
  mode := .between
  tokens := (placed.map PlacedToken.located).reverse

/-- What has been read leaves the lexer between two tokens. -/
theorem finish_of_lexed {read ahead : List Char} {placed : List PlacedToken}
    (lexed : Lexed read placed ahead) :
    ((read ++ ahead).foldl step start).finish =
      (ahead.foldl step (standing read placed)).finish := by
  induction lexed with
  | start text => rfl
  | @blank read ahead placed character _ white ih =>
      have stepped : (standing read placed).step character =
          standing (read ++ [character]) placed := by
        rw [step_between rfl, stepBetween_blank _ white, countLine_eq]
        simp [standing, lineStep, List.count_append, List.count_singleton,
          Nat.add_assoc]
      rw [List.append_assoc, List.singleton_append, ih, List.foldl_cons,
        stepped]
  | @comment read note ahead placed _ oneLine ended ih =>
      let inComment : Lexer := { standing read placed with mode := .comment }
      have opens : (standing read placed).step '#' = inComment := rfl
      have same : (read ++ '#' :: note).count '\n' = read.count '\n' := by
        simp [List.count_append, List.count_eq_zero.2 oneLine]
      have left : standing (read ++ '#' :: note) placed =
          { inComment with mode := .between } := by
        simp [standing, inComment, same]
      rw [List.append_assoc, List.cons_append, ih, List.foldl_cons, opens,
        List.foldl_append, foldl_step_comment rfl oneLine, left]
      cases ahead with
      | nil => rfl
      | cons character ahead =>
          obtain rfl : character = '\n' := ended character rfl
          rfl
  | @token read own ahead placed token _ spelled ih =>
      have moved : ({ standing read placed with
            line := (standing read placed).line + own.count '\n' } : Lexer).emit
              token (standing read placed).line =
          standing (read ++ own) (placed ++ [⟨token, read⟩]) := by
        simp [standing, emit, PlacedToken.located, List.count_append,
          Nat.add_assoc]
      rw [List.append_assoc, ih, finish_of_spells rfl spelled, moved]

end Lexer

/-- A text that is read to its end has the tokens that were read, each on its
line. -/
theorem tokens_of_lexed {text : String} {placed : List PlacedToken}
    (lexed : Lexed text.toList placed []) :
    tokens text = .ok (placed.map PlacedToken.located) := by
  have finished := Lexer.finish_of_lexed lexed
  rw [List.append_nil] at finished
  rw [tokens, finished]
  simp [Lexer.finish, Lexer.standing]

theorem tokens_of_runsOut {text : String} {read : List Char}
    (unclosed : RunsOut text.toList read) :
    tokens text = .error ⟨.unterminatedQuote, 1 + read.count '\n'⟩ := by
  obtain ⟨placed, quote, rest, spelled, mark, lexed, unclosed⟩ := unclosed
  let opened : Lexer := { Lexer.standing read placed with
    mode := .quoted quote (1 + read.count '\n') [] }
  have opens : (Lexer.standing read placed).step quote = opened := by
    rw [Lexer.step_between rfl]
    rcases mark with rfl | rfl <;> rfl
  rw [tokens, spelled, Lexer.finish_of_lexed lexed, List.foldl_cons, opens]
  exact Lexer.finish_of_neverCloses rfl (ne_backslash_of_mark mark) unclosed

/-- What stands before the first character of some kind. -/
theorem exists_run_until (stops : Char → Bool) (text : List Char) :
    ∃ own ahead, text = own ++ ahead ∧ (∀ character ∈ own,
      stops character = false) ∧
        ∀ character ∈ ahead.head?, stops character = true := by
  refine ⟨text.takeWhile fun character => !stops character,
    text.dropWhile fun character => !stops character,
    List.takeWhile_append_dropWhile.symm, ?_, ?_⟩
  · intro character member
    simpa using List.mem_takeWhile_imp member
  · intro character first
    have stopped := List.head?_dropWhile_not
      (fun character => !stops character) text
    rw [Option.mem_def.1 first] at stopped
    simpa using stopped

theorem exists_bareTail (previous : Char) (text : List Char) :
    ∃ own ahead, text = own ++ ahead ∧ BareTail previous own ahead := by
  cases text with
  | nil => exact ⟨[], [], rfl, .done fun _ none => by cases none⟩
  | cons character text =>
      by_cases ended : EndsWord previous character
      · exact ⟨[], character :: text, rfl, .done (by simpa using ended)⟩
      by_cases brace : character = '{'
      · -- Only a dollar sign lets the word go on over an opening brace.
        obtain rfl : previous = '$' := by
          by_contra other
          exact ended (.inr (.inr (.inr ⟨brace, other⟩)))
        subst brace
        obtain ⟨inner, ahead, rfl, free, stopped⟩ :=
          exists_run_until (fun c => c = '\n' || c = '}') text
        have oneLine : '\n' ∉ inner := fun member => by simpa using free _ member
        have unclosed : '}' ∉ inner := fun member => by simpa using free _ member
        cases ahead with
        | nil => exact ⟨'{' :: inner, [], by simp,
            .openGroup oneLine unclosed fun _ none => by cases none⟩
        | cons last ahead =>
            have last : last = '\n' ∨ last = '}' := by simpa using stopped
            rcases last with rfl | rfl
            · exact ⟨'{' :: inner, '\n' :: ahead, rfl,
                .openGroup oneLine unclosed (by simp [AtLineEnd])⟩
            · obtain ⟨own, ahead, rfl, tail⟩ := exists_bareTail '}' ahead
              exact ⟨'{' :: (inner ++ '}' :: own), ahead, by simp,
                .group oneLine unclosed tail⟩
      · obtain ⟨own, ahead, rfl, tail⟩ := exists_bareTail character text
        refine ⟨character :: own, ahead, rfl, .plain ?_ tail⟩
        simp only [EndsWord, not_or] at ended
        simp [isDelimiter, ended, brace]
termination_by text.length

/-- A quotation mark is closed somewhere or nowhere. -/
theorem neverCloses_or_exists_body (quote : Char) :
    ∀ text : List Char, NeverCloses quote text ∨
      ∃ body word ahead, text = body ++ quote :: ahead ∧
        QuotedBody quote body word
  | [] => .inl .empty
  | character :: text => by
      by_cases closes : character = quote
      · exact .inr ⟨[], [], text, by simp [closes], .empty⟩
      by_cases unescaped : character = '\\'
      · subst unescaped
        match text with
        | [] => exact .inl .backslash
        | character :: text =>
            rcases neverCloses_or_exists_body quote text with unclosed |
              ⟨body, word, ahead, rfl, inside⟩
            · exact .inl (.escape character unclosed)
            by_cases guarded : character = quote ∨ character = '\\'
            · exact .inr ⟨_, _, ahead, rfl, .guarded guarded inside⟩
            · exact .inr ⟨_, _, ahead, rfl, .kept guarded inside⟩
      · rcases neverCloses_or_exists_body quote text with unclosed |
          ⟨body, word, ahead, rfl, inside⟩
        · exact .inl (.plain closes unescaped unclosed)
        · exact .inr ⟨_, _, ahead, rfl, .plain closes unescaped inside⟩

/-- A character that is no blank and opens neither quotes nor a comment begins
a token. -/
theorem exists_spells {character : Char} (text : List Char)
    (visible : Text.isBlank character = false)
    (plain : character ∉ ['"', '\'', '#']) :
    ∃ token own ahead, character :: text = character :: own ++ ahead ∧
      Spells token (character :: own) ahead := by
  by_cases semicolon : character = ';'
  · subst semicolon
    exact ⟨_, [], text, rfl, .semicolon text⟩
  by_cases opening : character = '{'
  · subst opening
    exact ⟨_, [], text, rfl, .opening text⟩
  by_cases closing : character = '}'
  · subst closing
    exact ⟨_, [], text, rfl, .closing text⟩
  have inside : isDelimiter character = false := by
    simp [isDelimiter, visible, semicolon, opening, closing]
  obtain ⟨own, ahead, rfl, tail⟩ := exists_bareTail character text
  exact ⟨_, own, ahead, rfl, .bare inside plain tail⟩

/-- What is ahead of the lexer, if anything: a blank, a comment, a token or a
string that runs to the end of the text. -/
theorem Lexed.advance {read text : List Char} {placed : List PlacedToken}
    {character : Char} (lexed : Lexed read placed (character :: text)) :
    (∃ own ahead further, text = own ++ ahead ∧
      Lexed (read ++ character :: own) further ahead) ∨
    RunsOut (read ++ character :: text) read := by
  by_cases white : Text.isBlank character = true
  · exact .inl ⟨[], text, placed, rfl, .blank lexed white⟩
  by_cases mark : character = '"' ∨ character = '\''
  · rcases neverCloses_or_exists_body character text with unclosed |
      ⟨body, word, ahead, rfl, inside⟩
    · exact .inr ⟨placed, character, text, rfl, mark, lexed, unclosed⟩
    · have spelled := Spells.quoted mark inside ahead
      have whole : Lexed read placed
          (character :: (body ++ [character]) ++ ahead) := by
        simpa using lexed
      exact .inl ⟨body ++ [character], ahead, _, by simp, .token whole spelled⟩
  by_cases note : character = '#'
  · subst note
    obtain ⟨own, ahead, rfl, free, stopped⟩ :=
      exists_run_until (fun c => c = '\n') text
    have oneLine : '\n' ∉ own := fun member => by simpa using free _ member
    have ended : AtLineEnd ahead := by simpa [AtLineEnd] using stopped
    exact .inl ⟨own, ahead, placed, rfl, .comment lexed oneLine ended⟩
  have plain : character ∉ ['"', '\'', '#'] := by
    simpa [not_or, note] using mark
  obtain ⟨token, own, ahead, whole, spelled⟩ :=
    exists_spells text (Bool.eq_false_iff.2 white) plain
  exact .inl ⟨own, ahead, _, (List.cons.inj whole).2,
    .token (whole ▸ lexed) spelled⟩

theorem Lexed.complete_or_runsOut {read ahead : List Char}
    {placed : List PlacedToken} (lexed : Lexed read placed ahead) :
    (∃ further, Lexed (read ++ ahead) further []) ∨
      ∃ before, RunsOut (read ++ ahead) before := by
  cases ahead with
  | nil => exact .inl ⟨placed, by simpa using lexed⟩
  | cons character text =>
      rcases lexed.advance with ⟨own, rest, further, rfl, after⟩ | unclosed
      · have shorter : rest.length < (character :: (own ++ rest)).length := by
          rw [List.length_cons, List.length_append]
          omega
        simpa using after.complete_or_runsOut
      · exact .inr ⟨read, unclosed⟩
termination_by ahead.length

/-- A text is read to its end, or a string in it runs to the end. -/
theorem lexed_or_runsOut (text : List Char) :
    (∃ placed, Lexed text placed []) ∨ ∃ read, RunsOut text read :=
  (Lexed.start text).complete_or_runsOut

theorem exists_lexed_of_tokens {text : String} {located : List LocatedToken}
    (read : tokens text = .ok located) :
    ∃ placed, Lexed text.toList placed [] := by
  rcases lexed_or_runsOut text.toList with lexed | ⟨before, unclosed⟩
  · exact lexed
  · rw [tokens_of_runsOut unclosed] at read
    cases read

end ProxyLint
