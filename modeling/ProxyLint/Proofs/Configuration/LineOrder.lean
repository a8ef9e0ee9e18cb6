import ProxyLint.Proofs.Configuration.LineCount
import ProxyLint.Proofs.Configuration.Parsing
import Mathlib.Data.List.Pairwise
import Mathlib.Order.Monotone.Basic

/-!
# Lines in document order

Tokens are read in the order of their lines, also where a quoted word goes on
over several lines.  A directive stands on the line of its first word, so the
lines of the directives never decrease in document order, however they are
nested.
-/

namespace ProxyLint

/-- The line on which the next token starts, if one is already being read.  A
quoted word starts where its quote was opened. -/
def LexerMode.startLine (line : Nat) : LexerMode → Nat
  | .quoted _ startLine _ | .escaped _ startLine _ => startLine
  | .between | .comment | .bare _ | .braced _ => line

namespace Lexer

/-- The tokens were read in the order of their lines. -/
structure Ordered (lexer : Lexer) : Prop where
  startLine_le : lexer.mode.startLine lexer.line ≤ lexer.line
  earlier : ∀ located ∈ lexer.tokens,
    located.line ≤ lexer.mode.startLine lexer.line
  decreasing : lexer.tokens.Pairwise fun later located =>
    located.line ≤ later.line

theorem ordered_start : start.Ordered where
  startLine_le := Nat.le_refl _
  earlier _ member := by cases member
  decreasing := .nil

/-- What happens inside a word or between words. -/
theorem Ordered.move {lexer next : Lexer} (ordered : lexer.Ordered)
    (tokens : next.tokens = lexer.tokens)
    (forward : lexer.mode.startLine lexer.line ≤ next.mode.startLine next.line)
    (startLine_le : next.mode.startLine next.line ≤ next.line) :
    next.Ordered where
  startLine_le := startLine_le
  earlier located member := by
    rw [tokens] at member
    exact (ordered.earlier located member).trans forward
  decreasing := tokens ▸ ordered.decreasing

/-- A token that is complete. -/
theorem Ordered.emit {lexer : Lexer} (ordered : lexer.Ordered) (token : Token)
    {line : Nat} (started : lexer.mode.startLine lexer.line ≤ line)
    (bound : line ≤ lexer.line) : (lexer.emit token line).Ordered where
  startLine_le := Nat.le_refl _
  earlier located member := by
    rcases List.mem_cons.1 member with rfl | member
    · exact bound
    · exact (ordered.earlier located member).trans (started.trans bound)
  decreasing := List.pairwise_cons.2
    ⟨fun located member => (ordered.earlier located member).trans started,
      ordered.decreasing⟩

theorem le_line_countLine (lexer : Lexer) (character : Char) :
    lexer.line ≤ (lexer.countLine character).line := by
  rw [countLine_eq]
  exact Nat.le_add_right _ _

theorem Ordered.stepBetween {lexer : Lexer} (ordered : lexer.Ordered)
    (idle : lexer.mode = .between) (character : Char) :
    (lexer.stepBetween character).Ordered := by
  have started : lexer.mode.startLine lexer.line = lexer.line := by
    rw [idle]
    rfl
  unfold Lexer.stepBetween
  split
  · rw [countLine_eq]
    refine ordered.move rfl ?_ ?_
    all_goals simp [idle, LexerMode.startLine]
  · split
    · exact ordered.move rfl started.le le_rfl
    · exact ordered.emit _ started.le le_rfl
    · exact ordered.emit _ started.le le_rfl
    · exact ordered.emit _ started.le le_rfl
    · exact ordered.move rfl started.le le_rfl
    · exact ordered.move rfl started.le le_rfl
    · exact ordered.move rfl started.le le_rfl

theorem Ordered.step {lexer : Lexer} (ordered : lexer.Ordered)
    (character : Char) : (lexer.step character).Ordered := by
  have bound := ordered.startLine_le
  cases mode : lexer.mode with
  | between =>
      simp only [Lexer.step, mode]
      exact ordered.stepBetween mode character
  | comment =>
      simp only [Lexer.step, mode]
      split
      · refine ordered.move rfl ?_ le_rfl
        exact bound.trans (Nat.le_succ _)
      · exact ordered
  | quoted quote startLine word =>
      have started : lexer.mode.startLine lexer.line = startLine := by
        rw [mode]
        rfl
      rw [started] at bound
      simp only [Lexer.step, mode]
      split
      · exact ordered.emit _ started.le bound
      · split
        · exact ordered.move rfl started.le bound
        · exact ordered.move (by rw [countLine_eq]) started.le
            (bound.trans (lexer.le_line_countLine character))
  | escaped quote startLine word =>
      have started : lexer.mode.startLine lexer.line = startLine := by
        rw [mode]
        rfl
      rw [started] at bound
      simp only [Lexer.step, mode]
      split
      · exact ordered.move rfl started.le bound
      · exact ordered.move (by rw [countLine_eq]) started.le
          (bound.trans (lexer.le_line_countLine character))
  | bare word =>
      simp only [Lexer.step, mode]
      split
      · exact (ordered.emit _ bound le_rfl).stepBetween rfl character
      · split <;> exact ordered.move rfl bound le_rfl
  | braced word =>
      simp only [Lexer.step, mode]
      split
      · exact (ordered.emit _ bound le_rfl).stepBetween rfl character
      · split <;> exact ordered.move rfl bound le_rfl

theorem Ordered.foldl_step {lexer : Lexer} (ordered : lexer.Ordered)
    (text : List Char) : (text.foldl Lexer.step lexer).Ordered := by
  induction text generalizing lexer with
  | nil => exact ordered
  | cons character text ih => exact ih (ordered.step character)

theorem Ordered.of_finish {lexer : Lexer} (ordered : lexer.Ordered)
    {located : List LocatedToken} (finished : lexer.finish = .ok located) :
    located.Pairwise fun first second => first.line ≤ second.line := by
  unfold finish at finished
  split at finished
  all_goals cases finished
  · exact List.pairwise_reverse.2 ordered.decreasing
  · exact List.pairwise_reverse.2 ordered.decreasing
  · exact List.pairwise_reverse.2
      (ordered.emit _ ordered.startLine_le le_rfl).decreasing
  · exact List.pairwise_reverse.2
      (ordered.emit _ ordered.startLine_le le_rfl).decreasing

end Lexer

/-- The lines of the tokens of a text never decrease. -/
theorem tokens_ordered {text : String} {located : List LocatedToken}
    (read : tokens text = .ok located) :
    located.Pairwise fun first second => first.line ≤ second.line :=
  (Lexer.ordered_start.foldl_step text.toList).of_finish read

namespace Cursor

/-- The lines of the directives so far, in the order of their numbers, and of
the pending one. -/
def lines (cursor : Cursor) : List (Option Nat) :=
  cursor.tree.directives.toList.map Directive.line ++
    (cursor.pending.map fun pending => some pending.line).toList

/-- A directive takes the line of its first word with it. -/
theorem lines_addDirective {cursor next : Cursor} {pending : PendingDirective}
    (waiting : cursor.pending = some pending) {opensBlock : Bool}
    (grown : next.tree = cursor.addDirective pending opensBlock)
    (idle : next.pending = none) : next.lines = cursor.lines := by
  rw [lines, grown, idle, lines, waiting]
  simp [addDirective, ConfigTree.push]

/-- Only the first word of a directive adds a line. -/
theorem lines_step {cursor next : Cursor} {located : LocatedToken}
    (stepped : cursor.step located = .ok next) :
    next.lines = cursor.lines ∨
      next.lines = cursor.lines ++ [some located.line] := by
  rcases step_cases stepped with ⟨text, _, rfl⟩ | ⟨pending, _, waiting, rfl⟩ |
    ⟨pending, _, waiting, rfl⟩ | ⟨parent, held, _, idle, rfl⟩
  · rw [lines, (cursor.tree_addWord text located.line).1, lines]
    cases waiting : cursor.pending with
    | none =>
        right
        simp [addWord, waiting]
    | some pending =>
        left
        simp [addWord, waiting]
  · exact .inl (lines_addDirective waiting rfl rfl)
  · exact .inl (lines_addDirective waiting rfl rfl)
  · left
    simp [lines, closeBlock, idle]

/-- The lines never decrease, and none is behind the last token. -/
def OrderedUpTo (last : Nat) (cursor : Cursor) : Prop :=
  ∃ lines : List Nat, cursor.lines = lines.map some ∧
    lines.Pairwise (· ≤ ·) ∧ ∀ line ∈ lines, line ≤ last

theorem OrderedUpTo.step {last : Nat} {cursor next : Cursor}
    {located : LocatedToken} (ordered : cursor.OrderedUpTo last)
    (behind : last ≤ located.line) (stepped : cursor.step located = .ok next) :
    next.OrderedUpTo located.line := by
  obtain ⟨lines, same, increasing, bound⟩ := ordered
  have earlier (line : Nat) (member : line ∈ lines) : line ≤ located.line :=
    (bound line member).trans behind
  rcases lines_step stepped with kept | grown
  · exact ⟨lines, kept.trans same, increasing, earlier⟩
  · refine ⟨lines ++ [located.line], by simp [grown, same], ?_, ?_⟩
    · exact List.pairwise_append.2 ⟨increasing, List.pairwise_singleton _ _,
        by simpa using earlier⟩
    · intro line member
      rcases List.mem_append.1 member with member | newest
      · exact earlier line member
      · exact (List.mem_singleton.1 newest).le

theorem OrderedUpTo.run {last : Nat} {cursor next : Cursor}
    {located : List LocatedToken} (ordered : cursor.OrderedUpTo last)
    (behind : ∀ token ∈ located, last ≤ token.line)
    (inOrder : located.Pairwise fun first second => first.line ≤ second.line)
    (ran : cursor.run located = .ok next) :
    ∃ last, next.OrderedUpTo last := by
  induction located generalizing last cursor with
  | nil =>
      cases ran
      exact ⟨last, ordered⟩
  | cons token rest ih =>
      obtain ⟨later, inOrder⟩ := List.pairwise_cons.1 inOrder
      obtain ⟨middle, stepped, ran⟩ := exists_of_run_cons ran
      exact ih (ordered.step (behind token List.mem_cons_self) stepped)
        later inOrder ran

end Cursor

namespace ConfigTree

/-- The lines of the directives of a text never decrease. -/
theorem exists_lines_of_parse {text : String} {tree : ConfigTree}
    (parsed : parse text = .ok tree) :
    ∃ lines : List Nat, tree.directives.toList.map Directive.line =
      lines.map some ∧ lines.Pairwise (· ≤ ·) := by
  obtain ⟨located, read, built⟩ := exists_tokens_of_parse parsed
  obtain ⟨cursor, ran, finished⟩ := exists_run_of_ofTokens built
  have atStart : Cursor.start.OrderedUpTo 0 :=
    ⟨[], rfl, .nil, fun line member => by cases member⟩
  obtain ⟨last, lines, same, increasing, _⟩ :=
    atStart.run (fun _ _ => Nat.zero_le _) (tokens_ordered read) ran
  unfold Cursor.finish at finished
  split at finished
  next => cases finished
  next => cases finished
  next idle _ =>
    obtain rfl := Except.ok.inj finished
    refine ⟨lines, ?_, increasing⟩
    rwa [Cursor.lines, idle, Option.map_none, Option.toList_none,
      List.append_nil] at same

/-- A directive of a text stands on a line that no later one precedes. -/
theorem line_le_of_parse {text : String} {tree : ConfigTree}
    (parsed : parse text = .ok tree) {id other : Nat} (positive : 0 < id)
    (before : id ≤ other) (bound : other ≤ tree.size) :
    ∃ line otherLine, tree.line id = some line ∧
      tree.line other = some otherLine ∧ line ≤ otherLine := by
  obtain ⟨lines, same, increasing⟩ := exists_lines_of_parse parsed
  have length : lines.length = tree.size := by
    simpa [size] using (congrArg List.length same).symm
  have stored (index : Nat) : tree.line (index + 1) = lines[index]? := by
    have found := congrArg (fun stored => stored[index]?.bind (·)) same
    simpa [Option.bind_map, Function.comp_def, line, root, find?] using found
  obtain ⟨index, rfl⟩ := Nat.exists_eq_add_one.2 positive
  obtain ⟨later, rfl⟩ := Nat.exists_eq_add_one.2 (positive.trans_le before)
  have laterBound : later < lines.length := by omega
  have indexBound : index < lines.length := by omega
  refine ⟨lines[index], lines[later], ?_, ?_, ?_⟩
  · rw [stored, List.getElem?_eq_getElem]
  · rw [stored, List.getElem?_eq_getElem]
  · have inOrder : (⟨index, indexBound⟩ : Fin lines.length) ≤
        ⟨later, laterBound⟩ := Nat.le_of_succ_le_succ before
    exact increasing.rel_get_of_le inOrder

end ConfigTree

end ProxyLint
