import Mathlib.Data.List.DropRight
import ProxyLint.Proofs.Configuration.LineNumbers

/-!
# Malformed configurations

Tokens are viable if some further tokens complete them to a configuration.
The reader goes on exactly as long as its tokens are viable, so it stops at
the first token that no configuration has there.  The fault that it reports
follows from the words and the blocks that wait at that token, or at the end
of the text.
-/

namespace ProxyLint

/-- Tokens with which a configuration may begin. -/
def Viable (tokens : List Token) : Prop :=
  ∃ later items, ConfigText items (tokens ++ later)

/-- The words behind the last semicolon or brace. -/
def pendingWords (read : List LocatedToken) : List LocatedToken :=
  read.rtakeWhile LocatedToken.isWord

/-- How many blocks have been opened and not closed. -/
def openBlocks (read : List LocatedToken) : Nat :=
  (read.map LocatedToken.token).count .opening -
    (read.map LocatedToken.token).count .closing

/-- The faults of a token behind some others. -/
inductive FaultAt (read : List LocatedToken) (located : LocatedToken) :
    ParseError → Prop where
  | emptyDirective
      (ends : located.token = .semicolon ∨ located.token = .opening)
      (idle : pendingWords read = []) :
      FaultAt read located ⟨.emptyDirective, located.line⟩
  | missingSemicolon {first : LocatedToken} {words : List LocatedToken}
      (closes : located.token = .closing)
      (waiting : pendingWords read = first :: words) :
      FaultAt read located ⟨.missingSemicolon, first.line⟩
  | unexpectedClose (closes : located.token = .closing)
      (idle : pendingWords read = []) (outside : openBlocks read = 0) :
      FaultAt read located ⟨.unexpectedClose, located.line⟩

/-- The faults of tokens that end too early.  Behind the brace of the
innermost open block there are only whole items. -/
inductive FaultAtEnd (read : List LocatedToken) : ParseError → Prop where
  | missingSemicolon {first : LocatedToken} {words : List LocatedToken}
      (waiting : pendingWords read = first :: words) :
      FaultAtEnd read ⟨.missingSemicolon, first.line⟩
  | unclosedBlock {before inside words : List LocatedToken}
      {first opening : LocatedToken} {items : List ConfigItem}
      (idle : pendingWords read = [])
      (split : read = before ++ opening :: inside)
      (opens : opening.token = .opening)
      (innermost : ConfigText items (inside.map LocatedToken.token))
      (named : pendingWords before = first :: words) :
      FaultAtEnd read ⟨.unclosedBlock, first.line⟩

/-- The reader takes some tokens in and stops at the next one. -/
def FailsAt (read : List LocatedToken) (located : LocatedToken)
    (error : ParseError) : Prop :=
  (∃ cursor, Cursor.start.run read = .ok cursor) ∧
    Cursor.start.run (read ++ [located]) = .error error

theorem pendingWords_concat (read : List LocatedToken)
    (located : LocatedToken) :
    pendingWords (read ++ [located]) =
      if located.isWord then pendingWords read ++ [located] else [] :=
  List.rtakeWhile_concat ..

theorem count_wordTokens (name : String) (arguments : List String)
    {sign : Token} (other : ∀ text, sign ≠ .word text) :
    (wordTokens name arguments).count sign = 0 := by
  rw [List.count_eq_zero, wordTokens, List.mem_map]
  rintro ⟨text, _, same⟩
  exact other text same.symm

/-- A configuration closes the blocks that it opens. -/
theorem ConfigText.count_opening {items : List ConfigItem}
    {tokens : List Token} (text : ConfigText items tokens) :
    tokens.count .opening = tokens.count .closing := by
  induction text with
  | empty => rfl
  | simple name arguments _ ih => simp [count_wordTokens, ih]
  | block name arguments _ _ insideIH restIH =>
      simp [count_wordTokens, insideIH, restIH]
      omega

theorem OpenText.count_opening {depth : Nat} {tokens : List Token}
    (opened : OpenText depth tokens) :
    tokens.count .opening = tokens.count .closing + depth := by
  induction opened with
  | top text => exact text.count_opening
  | inside _ name arguments text ih =>
      simp [count_wordTokens, ih, text.count_opening]
      omega

/-- Closing braces complete the tokens that leave some blocks open. -/
theorem OpenText.exists_items {depth : Nat} {tokens : List Token}
    (opened : OpenText depth tokens) :
    ∃ items, ConfigText items (tokens ++ List.replicate depth .closing) := by
  induction depth generalizing tokens with
  | zero =>
      cases opened with
      | @top items _ text => exact ⟨items, by simpa using text⟩
  | succ depth ih => simpa [List.replicate_succ] using ih opened.close

namespace Cursor

theorem run_append_of_error {cursor : Cursor} {read : List LocatedToken}
    {error : ParseError} (failed : cursor.run read = .error error)
    (later : List LocatedToken) :
    cursor.run (read ++ later) = .error error := by
  rw [run] at failed
  rw [run, List.foldlM_append, failed]
  rfl

theorem exists_of_run_append {cursor final : Cursor}
    {read later : List LocatedToken}
    (ran : cursor.run (read ++ later) = .ok final) :
    ∃ next, cursor.run read = .ok next ∧ next.run later = .ok final := by
  cases before : cursor.run read with
  | error error =>
      rw [run_append_of_error before] at ran
      cases ran
  | ok next =>
      rw [run_append before] at ran
      exact ⟨next, rfl, ran⟩

theorem run_concat {cursor next : Cursor} {read : List LocatedToken}
    (ran : cursor.run read = .ok next) (located : LocatedToken) :
    cursor.run (read ++ [located]) = next.step located := by
  rw [run_append ran, run, List.foldlM_cons]
  cases next.step located <;> rfl

/-- Words wait for a semicolon or a brace since the first pending one. -/
theorem pending_line_of_run {read : List LocatedToken} {cursor : Cursor}
    (ran : start.run read = .ok cursor) :
    cursor.pending.map PendingDirective.line =
      (pendingWords read).head?.map LocatedToken.line := by
  induction read using List.reverseRecOn generalizing cursor with
  | nil =>
      cases ran
      rfl
  | append_singleton read located ih =>
      obtain ⟨previous, ran, stepped⟩ := exists_of_run_concat ran
      have before := ih ran
      obtain ⟨token, line⟩ := located
      rw [pendingWords_concat]
      rcases step_cases stepped with ⟨text, rfl, rfl⟩ |
        ⟨pending, rfl, _, rfl⟩ | ⟨pending, rfl, _, rfl⟩ |
        ⟨parent, held, rfl, _, rfl⟩
      · have word : LocatedToken.isWord ⟨.word text, line⟩ = true := rfl
        rw [if_pos word, List.head?_append]
        cases waiting : previous.pending with
        | none =>
            rw [waiting, Option.map_none] at before
            rw [Option.map_eq_none_iff.1 before.symm]
            simp [addWord, waiting]
        | some pending =>
            rw [waiting, Option.map_some] at before
            obtain ⟨first, head, same⟩ := Option.map_eq_some_iff.1 before.symm
            simp [addWord, waiting, head, same]
      · rfl
      · rfl
      · rfl

/-- The reader stands in as many blocks as are open. -/
theorem openBlocks_of_run {read : List LocatedToken} {cursor : Cursor}
    (ran : start.run read = .ok cursor) :
    openBlocks read = (cursor.tree.enclosing cursor.block).length := by
  obtain ⟨before, opened, seen⟩ := (reached_of_run ran).openText
  have counted := opened.count_opening
  have words (sign : Token) (other : ∀ text, sign ≠ .word text) :
      cursor.pendingTokens.count sign = 0 := by
    unfold pendingTokens
    cases cursor.pending with
    | none => rfl
    | some pending => exact count_wordTokens _ _ other
  rw [openBlocks, seen, List.count_append, List.count_append,
    words _ (by simp), words _ (by simp), counted]
  omega

/-- The reader takes in what a configuration may begin with. -/
theorem exists_run_iff_viable (read : List LocatedToken) :
    (∃ cursor, start.run read = .ok cursor) ↔
      Viable (read.map LocatedToken.token) := by
  constructor
  · rintro ⟨cursor, ran⟩
    obtain ⟨before, opened, seen⟩ := (reached_of_run ran).openText
    cases waiting : cursor.pending with
    | none =>
        rw [pendingTokens, waiting, List.append_nil] at seen
        obtain ⟨items, text⟩ := opened.exists_items
        exact ⟨_, items, seen ▸ text⟩
    | some pending =>
        rw [pendingTokens, waiting] at seen
        obtain ⟨items, text⟩ := (opened.append
          (.simple pending.name pending.arguments .empty)).exists_items
        refine ⟨.semicolon :: List.replicate
          (cursor.tree.enclosing cursor.block).length .closing, items, ?_⟩
        simpa [seen] using text
  · rintro ⟨later, items, text⟩
    -- The further tokens may stand on any line.
    let rest := later.map fun token => LocatedToken.mk token 0
    have whole : (read ++ rest).map LocatedToken.token =
        read.map LocatedToken.token ++ later := by
      simp [rest, Function.comp_def]
    obtain ⟨next, _, ran, _⟩ := exists_added_of_configText text
      (rfl : start.pending = none) whole
    obtain ⟨cursor, before, _⟩ := exists_of_run_append ran
    exact ⟨cursor, before⟩

/-- The reader has a pending directive if words wait, and its line is that of
the first of them. -/
theorem pending_cases {read : List LocatedToken} {cursor : Cursor}
    (ran : start.run read = .ok cursor) :
    (cursor.pending = none ∧ pendingWords read = []) ∨
      ∃ pending first words, cursor.pending = some pending ∧
        pendingWords read = first :: words ∧ first.line = pending.line := by
  have line := pending_line_of_run ran
  cases waiting : cursor.pending with
  | none =>
      rw [waiting, Option.map_none] at line
      have none := Option.map_eq_none_iff.1 line.symm
      exact .inl ⟨rfl, List.head?_eq_none_iff.1 none⟩
  | some pending =>
      rw [waiting, Option.map_some] at line
      obtain ⟨first, head, same⟩ := Option.map_eq_some_iff.1 line.symm
      obtain ⟨words, spelled⟩ := List.head?_eq_some_iff.1 head
      exact .inr ⟨pending, first, words, rfl, spelled, same⟩

theorem parent?_eq_none_iff_of_run {read : List LocatedToken} {cursor : Cursor}
    (ran : start.run read = .ok cursor) :
    cursor.tree.parent? cursor.block = none ↔ openBlocks read = 0 := by
  rw [openBlocks_of_run ran, ConfigTree.enclosing]
  cases cursor.tree.parent? cursor.block with
  | none => simp
  | some parent => simp

/-- All the ways in which the reader stops at a token. -/
theorem error_cases {cursor : Cursor} {located : LocatedToken}
    {error : ParseError} (stepped : cursor.step located = .error error) :
    ((located.token = .semicolon ∨ located.token = .opening) ∧
      cursor.pending = none ∧ error = ⟨.emptyDirective, located.line⟩) ∨
    (∃ pending, located.token = .closing ∧ cursor.pending = some pending ∧
      error = ⟨.missingSemicolon, pending.line⟩) ∨
    (located.token = .closing ∧ cursor.pending = none ∧
      cursor.tree.parent? cursor.block = none ∧
        error = ⟨.unexpectedClose, located.line⟩) := by
  unfold step at stepped
  split at stepped
  next => cases stepped
  next token idle =>
    cases stepped
    exact .inl ⟨.inl token, idle, rfl⟩
  next token idle =>
    cases stepped
    exact .inl ⟨.inr token, idle, rfl⟩
  next => cases stepped
  next => cases stepped
  next pending token waiting =>
    cases stepped
    exact .inr (.inl ⟨pending, token, waiting, rfl⟩)
  next token idle =>
    split at stepped
    next atRoot =>
      cases stepped
      exact .inr (.inr ⟨token, idle, atRoot, rfl⟩)
    next => cases stepped

/-- The reader stops at the faulty tokens and at no others. -/
theorem step_eq_error_iff {read : List LocatedToken} {cursor : Cursor}
    (ran : start.run read = .ok cursor) (located : LocatedToken)
    (error : ParseError) :
    cursor.step located = .error error ↔ FaultAt read located error := by
  have waits := pending_cases ran
  constructor
  · intro stepped
    rcases error_cases stepped with ⟨ends, idle, rfl⟩ |
      ⟨pending, closes, waiting, rfl⟩ | ⟨closes, idle, atRoot, rfl⟩
    · obtain noWords : pendingWords read = [] := by simpa [idle] using waits
      exact .emptyDirective ends noWords
    · obtain ⟨first, ⟨words, spelled⟩, same⟩ : ∃ first,
          (∃ words, pendingWords read = first :: words) ∧
            first.line = pending.line := by simpa [waiting] using waits
      exact same ▸ .missingSemicolon closes spelled
    · obtain noWords : pendingWords read = [] := by simpa [idle] using waits
      exact .unexpectedClose closes noWords
        ((parent?_eq_none_iff_of_run ran).1 atRoot)
  · intro fault
    cases fault with
    | emptyDirective ends noWords =>
        have idle : cursor.pending = none := by simpa [noWords] using waits
        rcases ends with token | token
        · simp only [step, token, idle]
        · simp only [step, token, idle]
    | @missingSemicolon first words closes spelled =>
        obtain ⟨pending, waiting, same⟩ : ∃ pending,
            cursor.pending = some pending ∧ first.line = pending.line := by
          simpa [spelled] using waits
        simp only [step, closes, waiting, same]
    | unexpectedClose closes noWords outside =>
        have idle : cursor.pending = none := by simpa [noWords] using waits
        have atRoot := (parent?_eq_none_iff_of_run ran).2 outside
        simp only [step, closes, idle]
        split
        next => rfl
        next parent held =>
          rw [atRoot] at held
          cases held

/-- At an opening brace the pending words have named a block. -/
theorem exists_openBlock_of_run {before inside : List LocatedToken}
    {opening : LocatedToken} {cursor : Cursor}
    (ran : start.run (before ++ opening :: inside) = .ok cursor)
    (opens : opening.token = .opening) :
    ∃ outer pending first words, pendingWords before = first :: words ∧
      first.line = pending.line ∧
        (openBlock outer pending).run inside = .ok cursor := by
  obtain ⟨outer, ranBefore, ran⟩ := exists_of_run_append ran
  obtain ⟨next, stepped, ran⟩ := exists_of_run_cons ran
  rcases step_cases stepped with ⟨_, token, _⟩ | ⟨_, token, _⟩ |
    ⟨pending, _, waiting, rfl⟩ | ⟨_, _, token, _⟩
  · cases opens.symm.trans token
  · cases opens.symm.trans token
  · obtain ⟨first, ⟨words, spelled⟩, same⟩ : ∃ first,
        (∃ words, pendingWords before = first :: words) ∧
          first.line = pending.line := by
      simpa [waiting] using pending_cases ranBefore
    exact ⟨outer, pending, first, words, spelled, same, ran⟩
  · cases opens.symm.trans token

/-- The block that is opened stands on the line of the pending directive. -/
theorem finish_of_openBlock {cursor next : Cursor} {pending : PendingDirective}
    {items : List ConfigItem} {directives : List Directive}
    (inside : Added (cursor.openBlock pending) next items directives) :
    next.finish = .error ⟨.unclosedBlock, pending.line⟩ := by
  have stored : next.tree.find? next.block = some ⟨cursor.block, pending.name,
      pending.arguments, true, some pending.line⟩ := by
    rw [inside.block_eq, openBlock, ConfigTree.find?, ← Array.getElem?_toList,
      inside.directives_eq]
    simp [openBlock, addDirective, ConfigTree.push, ConfigTree.size]
  rw [finish, inside.idle, stored]
  rfl

end Cursor

theorem failsAt_iff (read : List LocatedToken) (located : LocatedToken)
    (error : ParseError) :
    FailsAt read located error ↔
      Viable (read.map LocatedToken.token) ∧ FaultAt read located error := by
  rw [← Cursor.exists_run_iff_viable, FailsAt]
  refine and_congr_right fun ⟨cursor, ran⟩ => ?_
  rw [Cursor.run_concat ran, Cursor.step_eq_error_iff ran]

/-- The reader stops at the first token that makes the tokens impossible. -/
theorem exists_failsAt_iff (read : List LocatedToken)
    (located : LocatedToken) :
    (∃ error, FailsAt read located error) ↔
      Viable (read.map LocatedToken.token) ∧
        ¬ Viable ((read ++ [located]).map LocatedToken.token) := by
  rw [← Cursor.exists_run_iff_viable, ← Cursor.exists_run_iff_viable]
  unfold FailsAt
  rw [exists_and_left]
  refine and_congr_right fun _ => ?_
  cases Cursor.start.run (read ++ [located]) with
  | error error => simp
  | ok cursor => simp

namespace ConfigTree

theorem ofTokens_eq_error_of_run {located : List LocatedToken}
    {error : ParseError} (failed : Cursor.start.run located = .error error) :
    ofTokens located = .error error := by
  rw [Cursor.run] at failed
  rw [ofTokens, failed]
  rfl

/-- Viable tokens that are no configuration end too early. -/
theorem exists_faultAtEnd {located : List LocatedToken}
    (viable : Viable (located.map LocatedToken.token))
    (incomplete : ¬ ∃ items, ConfigText items (located.map LocatedToken.token)) :
    ∃ error, FaultAtEnd located error := by
  obtain ⟨cursor, ran⟩ := (Cursor.exists_run_iff_viable located).2 viable
  rcases Cursor.pending_cases ran with ⟨idle, noWords⟩ |
    ⟨_, first, words, _, spelled, _⟩
  · obtain ⟨before, opened, seen⟩ := (Cursor.reached_of_run ran).openText
    rw [Cursor.pendingTokens, idle, List.append_nil] at seen
    generalize (cursor.tree.enclosing cursor.block).length = depth at opened
    cases opened with
    | @top items _ text => exact absurd ⟨items, seen ▸ text⟩ incomplete
    | @inside depth items outer inner _ name arguments text =>
        rw [← List.append_assoc] at seen
        obtain ⟨before, braced, rfl, _, bracedSeen⟩ :=
          List.map_eq_append_iff.1 seen
        obtain ⟨opening, inside, rfl, opens, rfl⟩ :=
          List.map_eq_cons_iff.1 bracedSeen
        obtain ⟨_, _, first, words, named, _⟩ :=
          Cursor.exists_openBlock_of_run ran opens
        exact ⟨_, .unclosedBlock noWords rfl opens text named⟩
  · exact ⟨_, .missingSemicolon spelled⟩

theorem ofTokens_of_faultAtEnd {located : List LocatedToken}
    {error : ParseError} (viable : Viable (located.map LocatedToken.token))
    (fault : FaultAtEnd located error) : ofTokens located = .error error := by
  obtain ⟨cursor, ran⟩ := (Cursor.exists_run_iff_viable located).2 viable
  rw [ofTokens_eq_of_run ran]
  have waits := Cursor.pending_cases ran
  cases fault with
  | @missingSemicolon first words spelled =>
      obtain ⟨pending, waiting, same⟩ : ∃ pending,
          cursor.pending = some pending ∧ first.line = pending.line := by
        simpa [spelled] using waits
      rw [Cursor.finish, waiting, same]
  | @unclosedBlock before inside words first opening items _ split opens
      innermost named =>
      subst split
      obtain ⟨outer, pending, other, _, spelled, same, ran⟩ :=
        Cursor.exists_openBlock_of_run ran opens
      obtain ⟨rfl, _⟩ := List.cons.inj (spelled.symm.trans named)
      obtain ⟨next, directives, ranInside, added⟩ :=
        Cursor.exists_added_of_configText innermost
          (rfl : (Cursor.openBlock outer pending).pending = none) rfl
      obtain rfl := Except.ok.inj (ran.symm.trans ranInside)
      rw [Cursor.finish_of_openBlock added, same]

/-- Tokens that cannot be taken in have a first one at which the reader
stops. -/
theorem exists_failsAt_of_run {located : List LocatedToken} {error : ParseError}
    (failed : Cursor.start.run located = .error error) :
    ∃ read token later, located = read ++ token :: later ∧
      FailsAt read token error := by
  induction located using List.reverseRecOn with
  | nil => cases failed
  | append_singleton read token ih =>
      cases before : Cursor.start.run read with
      | ok cursor => exact ⟨read, token, [], rfl, ⟨cursor, before⟩, failed⟩
      | error earlier =>
          obtain rfl := Except.error.inj
            ((Cursor.run_append_of_error before [token]).symm.trans failed)
          obtain ⟨start, first, later, rfl, stopped⟩ := ih before
          exact ⟨start, first, later ++ [token], by simp, stopped⟩

/-- What is reported about the tokens of a text. -/
structure Diagnosis (text : String) (located : List LocatedToken) : Prop where
  /-- The reader stops at the first token that no configuration has there. -/
  stops_iff : ∀ read token later, located = read ++ token :: later →
    ((∃ error, FailsAt read token error) ↔
      Viable (read.map LocatedToken.token) ∧
        ¬ Viable ((read ++ [token]).map LocatedToken.token))
  /-- The words and the blocks that wait at a token decide what its fault
  is. -/
  fault_iff : ∀ read token later, located = read ++ token :: later →
    ∀ error, FailsAt read token error ↔
      Viable (read.map LocatedToken.token) ∧ FaultAt read token error
  stopped : ∀ read token later, located = read ++ token :: later →
    ∀ error, FailsAt read token error → parse text = .error error
  exists_endFault : Viable (located.map LocatedToken.token) →
    (¬ ∃ items, ConfigText items (located.map LocatedToken.token)) →
      ∃ error, FaultAtEnd located error
  ended : Viable (located.map LocatedToken.token) →
    ∀ error, FaultAtEnd located error → parse text = .error error
  /-- Nothing else is reported. -/
  exhaustive : ∀ error, parse text = .error error →
    (∃ read token later, located = read ++ token :: later ∧
      FailsAt read token error) ∨
    (Viable (located.map LocatedToken.token) ∧ FaultAtEnd located error)

theorem diagnosis_of_tokens {text : String} {located : List LocatedToken}
    (lexed : tokens text = .ok located) : Diagnosis text located := by
  have parsed : parse text = ofTokens located := by
    rw [parse, lexed]
    rfl
  constructor
  · intro read token _ _
    exact exists_failsAt_iff read token
  · intro read token _ _ error
    exact failsAt_iff read token error
  · rintro read token later rfl error ⟨_, failed⟩
    rw [parsed]
    have whole := Cursor.run_append_of_error failed later
    rw [← List.append_cons] at whole
    exact ofTokens_eq_error_of_run whole
  · exact exists_faultAtEnd
  · intro viable error fault
    rw [parsed]
    exact ofTokens_of_faultAtEnd viable fault
  · intro error failed
    rw [parsed] at failed
    cases ran : Cursor.start.run located with
    | error other =>
        obtain rfl := Except.error.inj
          ((ofTokens_eq_error_of_run ran).symm.trans failed)
        exact .inl (exists_failsAt_of_run ran)
    | ok cursor =>
        have viable := (Cursor.exists_run_iff_viable located).1 ⟨cursor, ran⟩
        have incomplete :
            ¬ ∃ items, ConfigText items (located.map LocatedToken.token) := by
          rintro ⟨items, text⟩
          obtain ⟨tree, accepted, _⟩ := exists_tree_of_configText text
          rw [accepted] at failed
          cases failed
        obtain ⟨other, fault⟩ := exists_faultAtEnd viable incomplete
        obtain rfl := Except.error.inj
          ((ofTokens_of_faultAtEnd viable fault).symm.trans failed)
        exact .inr ⟨viable, fault⟩

/-- A string that runs to the end of the text is reported on the line of its
quotation mark.  Any other text has tokens, and what is reported points at the
first of them that is impossible or at what the end leaves open. -/
theorem faults_at_first_impossible_token (text : String) :
    (∀ before, RunsOut text.toList before →
      parse text = .error ⟨.unterminatedQuote, 1 + before.count '\n'⟩) ∧
    ((¬ ∃ before, RunsOut text.toList before) →
      ∃ located, tokens text = .ok located ∧ Diagnosis text located) := by
  constructor
  · intro before unclosed
    rw [parse, tokens_of_runsOut unclosed]
    rfl
  · intro closed
    obtain ⟨placed, lexed⟩ :=
      (lexed_or_runsOut text.toList).resolve_right closed
    have read := tokens_of_lexed lexed
    exact ⟨_, read, diagnosis_of_tokens read⟩

/-- A quotation mark on the second line that nothing closes, and a block on the
second line that nothing closes. -/
theorem unfinishedSite_faults :
    parse "a\n'b;" = .error ⟨.unterminatedQuote, 2⟩ ∧
      parse "a;\nb c \x7b\n d;" = .error ⟨.unclosedBlock, 2⟩ := by
  constructor
  · have first : Spells (.word "a") ['a'] "\n'b;".toList :=
      .bare rfl (by decide) (.done (by simp [EndsWord, Text.isBlank]))
    have lexed : Lexed ['a', '\n'] [⟨.word "a", []⟩] "'b;".toList :=
      .blank (.token (.start _) first) rfl
    have unclosed : NeverCloses '\'' ['b', ';'] :=
      .plain (by decide) (by decide) (.plain (by decide) (by decide) .empty)
    exact (faults_at_first_impossible_token _).1 ['a', '\n']
      ⟨_, _, _, rfl, .inr rfl, lexed, unclosed⟩
  · have read : tokens "a;\nb c \x7b\n d;" = .ok
        [⟨.word "a", 1⟩, ⟨.semicolon, 1⟩, ⟨.word "b", 2⟩, ⟨.word "c", 2⟩,
          ⟨.opening, 2⟩, ⟨.word "d", 3⟩, ⟨.semicolon, 3⟩] := by
      decide +kernel
    have closed : ¬ ∃ before,
        RunsOut "a;\nb c \x7b\n d;".toList before := by
      rintro ⟨before, unclosed⟩
      rw [tokens_of_runsOut unclosed] at read
      cases read
    obtain ⟨located, lexed, diagnosis⟩ :=
      (faults_at_first_impossible_token _).2 closed
    obtain rfl := Except.ok.inj (read.symm.trans lexed)
    have viable : Viable [.word "a", .semicolon, .word "b", .word "c",
        .opening, .word "d", .semicolon] :=
      ⟨[.closing], _, .simple "a" [] (.block "b" ["c"]
        (.simple "d" [] .empty) .empty)⟩
    let before : List LocatedToken :=
      [⟨.word "a", 1⟩, ⟨.semicolon, 1⟩, ⟨.word "b", 2⟩, ⟨.word "c", 2⟩]
    let inside : List LocatedToken := [⟨.word "d", 3⟩, ⟨.semicolon, 3⟩]
    have body : ConfigText [.simple "d" []] (inside.map LocatedToken.token) :=
      .simple "d" [] .empty
    have named : pendingWords before = [⟨.word "b", 2⟩, ⟨.word "c", 2⟩] := rfl
    have fault : FaultAtEnd (before ++ ⟨.opening, 2⟩ :: inside)
        ⟨.unclosedBlock, 2⟩ :=
      .unclosedBlock rfl rfl rfl body named
    exact diagnosis.ended viable _ fault

end ConfigTree

end ProxyLint
