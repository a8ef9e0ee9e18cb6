import ProxyLint.Configuration.Lexer

/-!
# Counting lines

The line that the lexer has come to is the number of newlines behind it,
wherever these stand: between words, in comments, in quotes or after a
backslash.
-/

namespace ProxyLint

/-- The number of newlines in a text. -/
def Text.newlines (text : String) : Nat :=
  text.toList.count '\n'

namespace LexerMode

/-- A quotation mark is no newline, so newlines in quotes are counted. -/
def Marked : LexerMode → Prop
  | .quoted quote _ _ | .escaped quote _ _ => quote ≠ '\n'
  | .between | .comment | .bare _ | .braced _ => True

end LexerMode

namespace Lexer

/-- What a character adds to the number of the line. -/
def lineStep (character : Char) : Nat :=
  if character = '\n' then 1 else 0

theorem lineStep_of_ne {character : Char} (other : character ≠ '\n') :
    lineStep character = 0 :=
  if_neg other

theorem countLine_eq (lexer : Lexer) (character : Char) :
    lexer.countLine character =
      { lexer with line := lexer.line + lineStep character } := by
  unfold countLine lineStep
  split <;> rfl

theorem stepBetween_counts {lexer : Lexer} (idle : lexer.mode = .between)
    (character : Char) :
    (lexer.stepBetween character).mode.Marked ∧
      (lexer.stepBetween character).line = lexer.line + lineStep character := by
  unfold stepBetween
  split
  next =>
    rw [countLine_eq, idle]
    exact ⟨trivial, rfl⟩
  next visible =>
    have other : character ≠ '\n' := by
      rintro rfl
      exact visible (by decide)
    rw [lineStep_of_ne other]
    split
    · exact ⟨trivial, rfl⟩
    · exact ⟨trivial, rfl⟩
    · exact ⟨trivial, rfl⟩
    · exact ⟨trivial, rfl⟩
    · exact ⟨show '"' ≠ '\n' by decide, rfl⟩
    · exact ⟨show '\'' ≠ '\n' by decide, rfl⟩
    · exact ⟨trivial, rfl⟩

/-- Every newline is counted where it is read. -/
theorem step_counts {lexer : Lexer} (marked : lexer.mode.Marked)
    (character : Char) :
    (lexer.step character).mode.Marked ∧
      (lexer.step character).line = lexer.line + lineStep character := by
  cases mode : lexer.mode with
  | between =>
      simp only [step, mode]
      exact stepBetween_counts mode character
  | comment =>
      simp only [step, mode]
      split
      next newline =>
        rw [newline]
        exact ⟨trivial, rfl⟩
      next other =>
        rw [lineStep_of_ne other]
        exact ⟨marked, rfl⟩
  | quoted quote startLine word =>
      rw [mode] at marked
      simp only [step, mode]
      split
      next closes =>
        rw [lineStep_of_ne (closes ▸ marked)]
        exact ⟨trivial, rfl⟩
      next =>
        split
        next escapes =>
          rw [lineStep_of_ne (by rintro rfl; cases escapes)]
          exact ⟨marked, rfl⟩
        next =>
          rw [countLine_eq]
          exact ⟨marked, rfl⟩
  | escaped quote startLine word =>
      rw [mode] at marked
      simp only [step, mode]
      split
      next escapes =>
        have other : character ≠ '\n' := by
          rintro rfl
          rcases escapes with closes | backslash
          · exact marked closes.symm
          · cases backslash
        rw [lineStep_of_ne other]
        exact ⟨marked, rfl⟩
      next =>
        rw [countLine_eq]
        exact ⟨marked, rfl⟩
  | bare word =>
      simp only [step, mode]
      split
      next => exact stepBetween_counts rfl character
      next inside =>
        have other : character ≠ '\n' := by
          rintro rfl
          exact inside rfl
        rw [lineStep_of_ne other]
        split <;> exact ⟨trivial, rfl⟩
  | braced word =>
      simp only [step, mode]
      split
      next => exact stepBetween_counts rfl character
      next other =>
        rw [lineStep_of_ne other]
        split <;> exact ⟨trivial, rfl⟩

theorem foldl_step_counts {lexer : Lexer} (marked : lexer.mode.Marked)
    (text : List Char) :
    (text.foldl step lexer).mode.Marked ∧
      (text.foldl step lexer).line = lexer.line + text.count '\n' := by
  induction text generalizing lexer with
  | nil => exact ⟨marked, rfl⟩
  | cons character rest ih =>
      obtain ⟨stepMarked, stepLine⟩ := step_counts marked character
      obtain ⟨lastMarked, lastLine⟩ := ih stepMarked
      refine ⟨lastMarked, ?_⟩
      rw [List.foldl_cons, lastLine, stepLine, List.count_cons, lineStep]
      simp only [beq_iff_eq]
      omega

end Lexer

end ProxyLint
