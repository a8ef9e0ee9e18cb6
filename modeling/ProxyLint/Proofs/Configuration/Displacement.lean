import ProxyLint.Proofs.Configuration.LineCount

/-!
# Texts further down

Reading a text below another one gives the same tokens on later lines.  A
newline ends whatever a readable text leaves unfinished, a comment or a bare
word with an open brace in it, so the text below it is read as from the start.
-/

namespace ProxyLint

/-- The same token further down in a text. -/
def LocatedToken.later (lines : Nat) (located : LocatedToken) : LocatedToken :=
  { located with line := located.line + lines }

/-- The same fault further down in a text. -/
def ParseError.later (lines : Nat) (error : ParseError) : ParseError :=
  { error with line := error.line + lines }

/-- The outcome of reading further down what gives the given outcome. -/
def displaced {α β : Type} (lines : Nat) (move : α → β) :
    Except ParseError α → Except ParseError β
  | .ok value => .ok (move value)
  | .error error => .error (error.later lines)

def LexerMode.later (lines : Nat) : LexerMode → LexerMode
  | .quoted quote startLine word => .quoted quote (startLine + lines) word
  | .escaped quote startLine word => .escaped quote (startLine + lines) word
  | mode => mode

namespace Lexer

/-- The lexer that has some lines and their tokens, last one first, behind it
when the given one starts. -/
def behind (earlier : List LocatedToken) (lines : Nat) (lexer : Lexer) :
    Lexer where
  line := lexer.line + lines
  mode := lexer.mode.later lines
  tokens := lexer.tokens.map (LocatedToken.later lines) ++ earlier

section Behind

variable (earlier : List LocatedToken) (lines : Nat) (lexer : Lexer)

theorem countLine_behind (character : Char) :
    (lexer.behind earlier lines).countLine character =
      (lexer.countLine character).behind earlier lines := by
  unfold countLine
  split
  · simp [behind, Nat.add_right_comm]
  · rfl

theorem stepBetween_behind (character : Char) :
    (lexer.behind earlier lines).stepBetween character =
      (lexer.stepBetween character).behind earlier lines := by
  unfold stepBetween
  split
  next => exact countLine_behind earlier lines lexer character
  next => split <;> rfl

/-- By the mode: what was read before is looked at nowhere, and the line only
to be recorded. -/
theorem step_behind (character : Char) :
    (lexer.behind earlier lines).step character =
      (lexer.step character).behind earlier lines := by
  have moved : (lexer.behind earlier lines).mode = lexer.mode.later lines := rfl
  cases mode : lexer.mode with
  | between =>
      simp only [step, moved, mode, LexerMode.later]
      exact stepBetween_behind earlier lines lexer character
  | comment =>
      simp only [step, moved, mode, LexerMode.later]
      split
      · simp [behind, LexerMode.later, Nat.add_right_comm]
      · rfl
  | quoted quote startLine word =>
      simp only [step, moved, mode, LexerMode.later]
      split
      · rfl
      · split
        · rfl
        · rw [countLine_behind]
          rfl
  | escaped quote startLine word =>
      simp only [step, moved, mode, LexerMode.later]
      split
      · rfl
      · rw [countLine_behind]
        rfl
  | bare word =>
      simp only [step, moved, mode, LexerMode.later]
      split
      · exact stepBetween_behind earlier lines
          (lexer.emitWord word lexer.line) character
      · split <;> rfl
  | braced word =>
      simp only [step, moved, mode, LexerMode.later]
      split
      · exact stepBetween_behind earlier lines
          (lexer.emitWord word lexer.line) character
      · split <;> rfl

theorem foldl_step_behind (text : List Char) :
    text.foldl step (lexer.behind earlier lines) =
      (text.foldl step lexer).behind earlier lines := by
  induction text generalizing lexer with
  | nil => rfl
  | cons character rest ih =>
      rw [List.foldl_cons, step_behind, ih, List.foldl_cons]

theorem finish_behind :
    (lexer.behind earlier lines).finish =
      displaced lines
        (fun located =>
          earlier.reverse ++ located.map (LocatedToken.later lines))
        lexer.finish := by
  obtain ⟨line, mode, tokens⟩ := lexer
  cases mode with
  | quoted | escaped => rfl
  | between | comment | bare | braced =>
      simp [finish, behind, emitWord, emit, LexerMode.later,
        LocatedToken.later, displaced]

end Behind

theorem stepBetween_newline (lexer : Lexer) :
    lexer.stepBetween '\n' = { lexer with line := lexer.line + 1 } :=
  rfl

/-- Nothing is left unfinished over a newline outside quotes. -/
theorem step_newline {lexer : Lexer} {located : List LocatedToken}
    (finished : lexer.finish = .ok located) :
    lexer.step '\n' = start.behind located.reverse lexer.line := by
  cases mode : lexer.mode with
  | quoted | escaped =>
      simp only [finish, mode] at finished
      cases finished
  | between | comment =>
      simp only [finish, mode] at finished
      obtain rfl := Except.ok.inj finished
      simp [step, mode, stepBetween_newline, behind, start, LexerMode.later,
        Nat.add_comm]
  | bare | braced =>
      simp only [finish, mode] at finished
      obtain rfl := Except.ok.inj finished
      simp [step, mode, endsBareWord, Text.isBlank, stepBetween_newline,
        emitWord, emit, behind, start, LexerMode.later, Nat.add_comm]

end Lexer

/-- A text below a readable one is read after it, on later lines. -/
theorem tokens_append {before : String} {located : List LocatedToken}
    (read : tokens before = .ok located) (after : String) :
    tokens (before ++ "\n" ++ after) =
      displaced (Text.newlines before + 1)
        (fun further => located ++
          further.map (LocatedToken.later (Text.newlines before + 1)))
        (tokens after) := by
  have seam := Lexer.step_newline read
  have marked : Lexer.start.mode.Marked := trivial
  have counted := (Lexer.foldl_step_counts marked before.toList).2
  have line : Lexer.start.line + before.toList.count '\n' =
      Text.newlines before + 1 := Nat.add_comm ..
  rw [counted, line] at seam
  have text : (before ++ "\n" ++ after).toList =
      before.toList ++ '\n' :: after.toList := by
    simp
  rw [tokens, text, List.foldl_append, List.foldl_cons, seam,
    Lexer.foldl_step_behind, Lexer.finish_behind, List.reverse_reverse, tokens]

end ProxyLint
