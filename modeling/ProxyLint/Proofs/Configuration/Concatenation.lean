import ProxyLint.Proofs.Configuration.Displacement
import ProxyLint.Proofs.Configuration.Parsing
import ProxyLint.Proofs.Configuration.Sequel

/-!
# Texts one below the other

A text below a configuration is read as if it stood alone, except that the
directives above it come first.  Its own directives are placed behind them at
the top level, and what is wrong with it is found on later lines.
-/

namespace ProxyLint

attribute [ext] Cursor

def PendingDirective.later (lines : Nat) (pending : PendingDirective) :
    PendingDirective :=
  { pending with line := pending.line + lines }

namespace Cursor

/-- The reader that has a whole tree and some lines behind it when the given
one starts. -/
def behind (first : ConfigTree) (lines : Nat) (cursor : Cursor) : Cursor where
  tree := first.followedBy cursor.tree lines
  block := beyond first.size cursor.block
  block_le := by
    have moved := beyond_le first.size cursor.block
    have inside := cursor.block_le
    rw [ConfigTree.size_followedBy]
    omega
  pending := cursor.pending.map (PendingDirective.later lines)

section Behind

variable (first : ConfigTree) (lines : Nat) (cursor : Cursor)

theorem addWord_behind (text : String) (line : Nat) :
    (cursor.behind first lines).addWord text (line + lines) =
      (cursor.addWord text line).behind first lines := by
  unfold addWord
  cases waiting : cursor.pending with
  | none => simp [behind, waiting, PendingDirective.later]
  | some pending => simp [behind, waiting, PendingDirective.later]

theorem addDirective_behind (pending : PendingDirective) (opensBlock : Bool) :
    (cursor.behind first lines).addDirective (pending.later lines) opensBlock =
      first.followedBy (cursor.addDirective pending opensBlock) lines := by
  unfold addDirective
  rw [ConfigTree.followedBy_push]
  rfl

theorem endSimple_behind (pending : PendingDirective) :
    (cursor.behind first lines).endSimple (pending.later lines) =
      (cursor.endSimple pending).behind first lines := by
  ext1
  · exact addDirective_behind first lines cursor pending false
  · rfl
  · rfl

theorem openBlock_behind (pending : PendingDirective) :
    (cursor.behind first lines).openBlock (pending.later lines) =
      (cursor.openBlock pending).behind first lines := by
  ext1
  · exact addDirective_behind first lines cursor pending true
  · simp [openBlock, behind, Nat.add_assoc]
  · rfl

theorem parent?_behind :
    (cursor.behind first lines).tree.parent?
        (cursor.behind first lines).block =
      (cursor.tree.parent? cursor.block).map (beyond first.size) :=
  ConfigTree.parent?_followedBy_beyond first cursor.tree lines cursor.block

theorem step_closing_outside {located : LocatedToken}
    (token : located.token = .closing) (idle : cursor.pending = none)
    (outside : cursor.tree.parent? cursor.block = none) :
    cursor.step located = .error ⟨.unexpectedClose, located.line⟩ := by
  simp only [step, token, idle]
  split
  next => rfl
  next parent held =>
    rw [outside] at held
    cases held

/-- By the token: what was read before decides nothing. -/
theorem step_behind (located : LocatedToken) :
    (cursor.behind first lines).step (located.later lines) =
      displaced lines (behind first lines) (cursor.step located) := by
  have sameToken : (located.later lines).token = located.token := rfl
  have moved : (cursor.behind first lines).pending =
      cursor.pending.map (PendingDirective.later lines) := rfl
  cases token : located.token with
  | word text =>
      simp only [step, sameToken, token]
      exact congrArg Except.ok (addWord_behind first lines cursor text _)
  | semicolon =>
      cases waiting : cursor.pending with
      | none =>
          simp only [step, sameToken, token, moved, waiting, Option.map_none]
          rfl
      | some pending =>
          simp only [step, sameToken, token, moved, waiting, Option.map_some]
          exact congrArg Except.ok (endSimple_behind first lines cursor _)
  | opening =>
      cases waiting : cursor.pending with
      | none =>
          simp only [step, sameToken, token, moved, waiting, Option.map_none]
          rfl
      | some pending =>
          simp only [step, sameToken, token, moved, waiting, Option.map_some]
          exact congrArg Except.ok (openBlock_behind first lines cursor _)
  | closing =>
      cases waiting : cursor.pending with
      | some pending =>
          simp only [step, sameToken, token, moved, waiting, Option.map_some]
          rfl
      | none =>
          rw [token] at sameToken
          rw [waiting] at moved
          have parent := parent?_behind first lines cursor
          cases held : cursor.tree.parent? cursor.block with
          | none =>
              rw [held] at parent
              rw [step_closing_outside _ sameToken moved parent,
                step_closing_outside _ token waiting held]
              rfl
          | some block =>
              rw [held] at parent
              rw [step_closing sameToken moved parent,
                step_closing token waiting held]
              rfl

theorem run_cons_error {cursor : Cursor} {located : LocatedToken}
    {error : ParseError} (stopped : cursor.step located = .error error)
    (rest : List LocatedToken) :
    cursor.run (located :: rest) = .error error := by
  rw [run, List.foldlM_cons, stopped]
  rfl

theorem run_behind (located : List LocatedToken) :
    (cursor.behind first lines).run (located.map (LocatedToken.later lines)) =
      displaced lines (behind first lines) (cursor.run located) := by
  induction located generalizing cursor with
  | nil => rfl
  | cons token rest ih =>
      have stepped := step_behind first lines cursor token
      cases outcome : cursor.step token with
      | error error =>
          rw [outcome] at stepped
          rw [List.map_cons, run_cons_error stepped, run_cons_error outcome]
          rfl
      | ok next =>
          rw [outcome] at stepped
          rw [List.map_cons, run_cons stepped, run_cons outcome, ih]

end Behind

/-- Every directive that was read has a line. -/
def Lined (cursor : Cursor) : Prop :=
  ∀ id directive, cursor.tree.find? id = some directive →
    directive.line.isSome = true

theorem lined_start : start.Lined := by
  rintro (_ | index) directive found
  · cases found
  · simp [start, ConfigTree.empty, ConfigTree.find?] at found

theorem lined_push {cursor next : Cursor} (lined : cursor.Lined)
    {pending : PendingDirective} {opensBlock : Bool}
    (grown : next.tree = cursor.addDirective pending opensBlock) :
    next.Lined := by
  intro id directive found
  rw [grown] at found
  by_cases older : id ≤ cursor.tree.size
  · rw [addDirective, ConfigTree.find?_push_of_le _ older] at found
    exact lined id directive found
  · have bound := ConfigTree.le_size_of_find? found
    rw [size_addDirective] at bound
    obtain rfl : id = cursor.tree.size + 1 := by omega
    rw [addDirective, ConfigTree.find?_push_new] at found
    obtain rfl := Option.some.inj found
    rfl

theorem lined_step {cursor next : Cursor} {located : LocatedToken}
    (lined : cursor.Lined) (stepped : cursor.step located = .ok next) :
    next.Lined := by
  rcases step_cases stepped with ⟨text, _, rfl⟩ | ⟨pending, _, _, rfl⟩ |
    ⟨pending, _, _, rfl⟩ | ⟨parent, held, _, _, rfl⟩
  · rw [Lined, (cursor.tree_addWord text located.line).1]
    exact lined
  · exact lined_push lined rfl
  · exact lined_push lined rfl
  · exact lined

theorem lined_run {cursor next : Cursor} {located : List LocatedToken}
    (lined : cursor.Lined) (ran : cursor.run located = .ok next) :
    next.Lined := by
  induction located generalizing cursor with
  | nil =>
      cases ran
      exact lined
  | cons token rest ih =>
      obtain ⟨middle, stepped, ran⟩ := exists_of_run_cons ran
      exact ih (lined_step lined stepped) ran

theorem finish_behind (first : ConfigTree) (lines : Nat) {cursor : Cursor}
    (lined : cursor.Lined) :
    (cursor.behind first lines).finish =
      displaced lines (fun tree => first.followedBy tree lines)
        cursor.finish := by
  have moved : (cursor.behind first lines).pending =
      cursor.pending.map (PendingDirective.later lines) := rfl
  have found : (cursor.behind first lines).tree.find?
      (cursor.behind first lines).block =
        (cursor.tree.find? cursor.block).map
          (Directive.behind first.size lines) :=
    ConfigTree.find?_followedBy_beyond first cursor.tree lines cursor.block
  unfold finish
  rw [moved, found]
  cases cursor.pending with
  | some pending => rfl
  | none =>
      cases open_ : cursor.tree.find? cursor.block with
      | none => rfl
      | some block =>
          obtain ⟨line, known⟩ :=
            Option.isSome_iff_exists.1 (lined _ block open_)
          simp [Directive.behind, known, displaced, ParseError.later]

/-- A reader that may stop stands at the top level with no word pending, as at
the start. -/
theorem eq_behind_of_finish {cursor : Cursor} {first : ConfigTree}
    (finished : cursor.finish = .ok first) (lines : Nat) :
    cursor = start.behind first lines := by
  unfold finish at finished
  split at finished
  next => cases finished
  next => cases finished
  next idle atRoot =>
    obtain rfl := Except.ok.inj finished
    have outside : cursor.block = 0 := by
      cases block : cursor.block with
      | zero => rfl
      | succ index =>
          have inside := cursor.block_le
          rw [block] at atRoot inside
          rw [ConfigTree.find?, Array.getElem?_eq_none_iff] at atRoot
          exact absurd inside (by rw [ConfigTree.size]; omega)
    ext1
    · exact (ConfigTree.followedBy_empty cursor.tree lines).symm
    · exact outside
    · exact idle

end Cursor

namespace ConfigTree

theorem ofTokens_append {read : List LocatedToken} {first : ConfigTree}
    (accepted : ofTokens read = .ok first) (lines : Nat)
    (further : List LocatedToken) :
    ofTokens (read ++ further.map (LocatedToken.later lines)) =
      displaced lines (fun second => first.followedBy second lines)
        (ofTokens further) := by
  obtain ⟨cursor, ran, finished⟩ := exists_run_of_ofTokens accepted
  obtain rfl := Cursor.eq_behind_of_finish finished lines
  have whole := Cursor.run_append ran (further.map (LocatedToken.later lines))
  rw [Cursor.run_behind] at whole
  cases outcome : Cursor.start.run further with
  | error error =>
      rw [outcome] at whole
      rw [Cursor.run] at whole outcome
      rw [ofTokens, whole, ofTokens, outcome]
      rfl
  | ok last =>
      rw [outcome] at whole
      have lined := Cursor.lined_run Cursor.lined_start outcome
      rw [ofTokens_eq_of_run whole, ofTokens_eq_of_run outcome,
        Cursor.finish_behind first lines lined]

/-- A text below a configuration gives its own directives or its own fault. -/
theorem parse_append {before : String} {first : ConfigTree}
    (accepted : parse before = .ok first) (after : String) :
    parse (before ++ "\n" ++ after) =
      displaced (Text.newlines before + 1)
        (fun second => first.followedBy second (Text.newlines before + 1))
        (parse after) := by
  cases read : tokens before with
  | error error =>
      rw [parse, read] at accepted
      cases accepted
  | ok located =>
      rw [parse, read] at accepted
      have joined := tokens_append read after
      cases further : tokens after with
      | error error =>
          rw [further] at joined
          rw [parse, joined, parse, further]
          rfl
      | ok tail =>
          rw [further] at joined
          rw [parse, joined, parse, further]
          exact ofTokens_append accepted (Text.newlines before + 1) tail

/-- A text below a readable one is read token by token as if it stood alone,
and a text below a configuration gives its own directives or its own fault.
Only the lines grow, by those of the text above, and the numbers of the
directives, by the number of directives above. -/
theorem parse_below (before after : String) :
    (∀ located, tokens before = .ok located →
      tokens (before ++ "\n" ++ after) =
        match tokens after with
        | .ok further => .ok (located ++
            further.map (LocatedToken.later (Text.newlines before + 1)))
        | .error error => .error (error.later (Text.newlines before + 1))) ∧
    ∀ first, parse before = .ok first →
      parse (before ++ "\n" ++ after) =
        match parse after with
        | .ok second =>
            .ok (first.followedBy second (Text.newlines before + 1))
        | .error error => .error (error.later (Text.newlines before + 1)) := by
  constructor
  · intro located read
    rw [tokens_append read after]
    cases tokens after <;> rfl
  · intro first accepted
    rw [parse_append accepted after]
    cases parse after <;> rfl

/-- Neither an open brace nor a comment reaches over the line. -/
theorem trailingComment_continued :
    (∃ located, tokens "set $\x7bx # on" = .ok located ∧
      tokens ("set $\x7bx # on" ++ "\n" ++ "listen\n'80'") =
        .ok (located ++ [⟨.word "listen", 2⟩, ⟨.word "80", 3⟩])) ∧
    ∃ first, parse "server \x7b #\n\x7d # on" = .ok first ∧
      parse ("server \x7b #\n\x7d # on" ++ "\n" ++ "listen\n'80'") =
        .error ⟨.missingSemicolon, 3⟩ := by
  constructor
  · have above : tokens "set $\x7bx # on" =
        .ok [⟨.word "set", 1⟩, ⟨.word "$\x7bx # on", 1⟩] := by
      decide +kernel
    have below : tokens "listen\n'80'" =
        .ok [⟨.word "listen", 1⟩, ⟨.word "80", 2⟩] := by
      decide +kernel
    refine ⟨_, above, ?_⟩
    rw [(parse_below "set $\x7bx # on" "listen\n'80'").1 _ above, below]
    rfl
  · have readable : (parse "server \x7b #\n\x7d # on").isOk = true := by
      decide +kernel
    have below : parse "listen\n'80'" = .error ⟨.missingSemicolon, 1⟩ := by
      rfl
    cases above : parse "server \x7b #\n\x7d # on" with
    | error error =>
        rw [above] at readable
        cases readable
    | ok first =>
        refine ⟨first, rfl, ?_⟩
        rw [(parse_below "server \x7b #\n\x7d # on" "listen\n'80'").2 first above,
          below]
        rfl

end ConfigTree

end ProxyLint
