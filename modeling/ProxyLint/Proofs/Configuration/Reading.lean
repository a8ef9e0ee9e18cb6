import Mathlib.Data.List.Induction
import ProxyLint.Configuration.Parser
import ProxyLint.Proofs.Configuration.Layout

/-!
# Runs of the reader

The reader goes over the tokens one at a time.  At any moment the tokens seen
so far leave as many blocks open as there are blocks around the place where
the reader stands, and every directive stands in a block that was there before
it.  Conversely the reader never stops at tokens that the grammar derives, and
it adds the items of their derivation to the tree.
-/

namespace ProxyLint

namespace Cursor

def run (cursor : Cursor) (located : List LocatedToken) :
    Except ParseError Cursor :=
  located.foldlM step cursor

/-- The tokens of the directive that is being read. -/
def pendingTokens (cursor : Cursor) : List Token :=
  match cursor.pending with
  | none => []
  | some pending => wordTokens pending.name pending.arguments

@[simp]
theorem run_nil (cursor : Cursor) : cursor.run [] = .ok cursor :=
  rfl

theorem run_cons {cursor next : Cursor} {located : LocatedToken}
    (stepped : cursor.step located = .ok next) (rest : List LocatedToken) :
    cursor.run (located :: rest) = next.run rest := by
  rw [run, List.foldlM_cons, stepped]
  rfl

theorem run_append {cursor next : Cursor} {read : List LocatedToken}
    (ran : cursor.run read = .ok next) (rest : List LocatedToken) :
    cursor.run (read ++ rest) = next.run rest := by
  rw [run] at ran
  rw [run, List.foldlM_append, ran]
  rfl

theorem exists_of_run_cons {cursor final : Cursor} {located : LocatedToken}
    {rest : List LocatedToken} (ran : cursor.run (located :: rest) = .ok final) :
    ∃ next, cursor.step located = .ok next ∧ next.run rest = .ok final := by
  cases stepped : cursor.step located with
  | error error =>
      rw [run, List.foldlM_cons, stepped] at ran
      cases ran
  | ok next =>
      rw [run_cons stepped] at ran
      exact ⟨next, rfl, ran⟩

theorem exists_of_run_concat {cursor final : Cursor}
    {read : List LocatedToken} {located : LocatedToken}
    (ran : cursor.run (read ++ [located]) = .ok final) :
    ∃ next, cursor.run read = .ok next ∧ next.step located = .ok final := by
  cases before : cursor.run read with
  | error error =>
      rw [run] at before
      rw [run, List.foldlM_append, before] at ran
      cases ran
  | ok next =>
      rw [run_append before, run, List.foldlM_cons] at ran
      cases stepped : next.step located with
      | error error =>
          rw [stepped] at ran
          cases ran
      | ok last =>
          rw [stepped] at ran
          cases ran
          exact ⟨next, rfl, stepped⟩

/-- All that one token can do to the reader. -/
theorem step_cases {cursor next : Cursor} {located : LocatedToken}
    (stepped : cursor.step located = .ok next) :
    (∃ text, located.token = .word text ∧
      next = cursor.addWord text located.line) ∨
    (∃ pending, located.token = .semicolon ∧
      cursor.pending = some pending ∧ next = cursor.endSimple pending) ∨
    (∃ pending, located.token = .opening ∧
      cursor.pending = some pending ∧ next = cursor.openBlock pending) ∨
    ∃ parent held, located.token = .closing ∧ cursor.pending = none ∧
      next = cursor.closeBlock parent held := by
  unfold step at stepped
  split at stepped
  next text token =>
    cases stepped
    exact .inl ⟨text, token, rfl⟩
  next => cases stepped
  next => cases stepped
  next pending token waiting =>
    cases stepped
    exact .inr (.inl ⟨pending, token, waiting, rfl⟩)
  next pending token waiting =>
    cases stepped
    exact .inr (.inr (.inl ⟨pending, token, waiting, rfl⟩))
  next => cases stepped
  next token idle =>
    split at stepped
    next => cases stepped
    next parent held =>
      cases stepped
      exact .inr (.inr (.inr ⟨parent, held, token, idle, rfl⟩))

/-- What holds whenever the reader has taken some tokens in. -/
structure Reached (read : List LocatedToken) (cursor : Cursor) : Prop where
  parent_lt : ∀ id parent, cursor.tree.parent? id = some parent → parent < id
  openText : ∃ before,
    OpenText (cursor.tree.enclosing cursor.block).length before ∧
      read.map LocatedToken.token = before ++ cursor.pendingTokens

theorem reached_start : Reached [] start where
  parent_lt := by
    intro id parent held
    have bound := ConfigTree.le_size_of_parent? held
    cases Nat.le_zero.1 bound
    cases held
  openText := by
    refine ⟨[], ?_, rfl⟩
    simpa [start, ConfigTree.root] using OpenText.top .empty

theorem pendingTokens_addWord (cursor : Cursor) (text : String) (line : Nat) :
    (cursor.addWord text line).pendingTokens =
      cursor.pendingTokens ++ [.word text] := by
  unfold addWord pendingTokens
  cases waiting : cursor.pending with
  | none => rfl
  | some pending => simp [wordTokens]

theorem tree_addWord (cursor : Cursor) (text : String) (line : Nat) :
    (cursor.addWord text line).tree = cursor.tree ∧
      (cursor.addWord text line).block = cursor.block := by
  unfold addWord
  cases cursor.pending <;> exact ⟨rfl, rfl⟩

theorem parent_lt_addDirective {cursor : Cursor}
    (older : ∀ id parent, cursor.tree.parent? id = some parent → parent < id)
    (pending : PendingDirective) (opensBlock : Bool) :
    ∀ id parent,
      (cursor.addDirective pending opensBlock).parent? id = some parent →
        parent < id := by
  intro id parent held
  by_cases present : id ≤ cursor.tree.size
  · rw [addDirective, ConfigTree.parent?_push_of_le _ present] at held
    exact older id parent held
  · have bound := ConfigTree.le_size_of_parent? held
    rw [size_addDirective] at bound
    obtain rfl : id = cursor.tree.size + 1 := by omega
    rw [addDirective, ConfigTree.parent?, ConfigTree.find?_push_new] at held
    obtain rfl := Option.some.inj held
    exact Nat.lt_succ_of_le cursor.block_le

theorem reached_step {read : List LocatedToken} {cursor next : Cursor}
    {located : LocatedToken} (reached : Reached read cursor)
    (stepped : cursor.step located = .ok next) :
    Reached (read ++ [located]) next := by
  obtain ⟨before, opened, seen⟩ := reached.openText
  rcases step_cases stepped with ⟨text, token, rfl⟩ |
    ⟨pending, token, waiting, rfl⟩ | ⟨pending, token, waiting, rfl⟩ |
    ⟨parent, held, token, idle, rfl⟩
  · obtain ⟨sameTree, sameBlock⟩ := cursor.tree_addWord text located.line
    refine ⟨sameTree ▸ reached.parent_lt, before, ?_, ?_⟩
    · rwa [sameTree, sameBlock]
    · rw [pendingTokens_addWord, List.map_append, seen]
      simp [token]
  · refine ⟨parent_lt_addDirective reached.parent_lt pending false,
      before ++ (wordTokens pending.name pending.arguments ++ [.semicolon]),
      ?_, ?_⟩
    · have surrounding : (cursor.endSimple pending).tree.enclosing
          (cursor.endSimple pending).block =
            cursor.tree.enclosing cursor.block :=
        ConfigTree.enclosing_push_of_le (Nat.le_succ_of_le cursor.block_le)
          cursor.block_le
      rw [surrounding]
      exact opened.append (.simple _ _ .empty)
    · rw [List.map_append, seen]
      simp [token, pendingTokens, waiting, endSimple]
  · refine ⟨parent_lt_addDirective reached.parent_lt pending true,
      before ++ (wordTokens pending.name pending.arguments ++ [.opening]),
      ?_, ?_⟩
    · have surrounding : (cursor.openBlock pending).tree.enclosing
          (cursor.openBlock pending).block =
            cursor.block :: cursor.tree.enclosing cursor.block := by
        have held : (cursor.openBlock pending).tree.parent?
            (cursor.tree.size + 1) = some cursor.block := by
          simp [openBlock, addDirective, ConfigTree.parent?,
            ConfigTree.find?_push_new]
        rw [show (cursor.openBlock pending).block = cursor.tree.size + 1 from
          rfl, ConfigTree.enclosing_of_lt held
            (Nat.lt_succ_of_le cursor.block_le)]
        exact congrArg _ (ConfigTree.enclosing_push_of_le
          (Nat.le_succ_of_le cursor.block_le) cursor.block_le)
      rw [surrounding]
      exact .inside opened _ _ .empty
    · rw [List.map_append, seen]
      simp [token, pendingTokens, waiting, openBlock]
  · refine ⟨reached.parent_lt, before ++ [.closing], ?_, ?_⟩
    · have older := reached.parent_lt _ _ held
      rw [ConfigTree.enclosing_of_lt held older] at opened
      exact opened.close
    · rw [List.map_append, seen]
      simp [token, pendingTokens, idle, closeBlock]

theorem reached_of_run {read : List LocatedToken} {cursor : Cursor}
    (ran : start.run read = .ok cursor) : Reached read cursor := by
  induction read using List.reverseRecOn generalizing cursor with
  | nil =>
      cases ran
      exact reached_start
  | append_singleton read located ih =>
      obtain ⟨previous, ran, stepped⟩ := exists_of_run_concat ran
      exact reached_step (ih ran) stepped

/-- A run that may stop has read a list of items. -/
theorem exists_items_of_finish {read : List LocatedToken} {cursor : Cursor}
    {tree : ConfigTree} (ran : start.run read = .ok cursor)
    (finished : cursor.finish = .ok tree) :
    ∃ items, ConfigText items (read.map LocatedToken.token) := by
  obtain ⟨before, opened, seen⟩ := (reached_of_run ran).openText
  unfold finish at finished
  split at finished
  next => cases finished
  next => cases finished
  next idle atRoot =>
    have outside : cursor.tree.enclosing cursor.block = [] := by
      rw [ConfigTree.enclosing, ConfigTree.parent?, atRoot]
      rfl
    rw [outside] at opened
    cases opened with
    | @top items _ text =>
        refine ⟨items, ?_⟩
        rw [seen, pendingTokens, idle, List.append_nil]
        exact text

theorem run_of_words {cursor : Cursor} {name : String} {line : Nat}
    {further : List String} {located : List LocatedToken} :
    ∀ {arguments : List String},
      cursor.pending = some ⟨name, arguments, line⟩ →
      located.map LocatedToken.token = further.map .word →
      cursor.run located = .ok { cursor with
        pending := some ⟨name, arguments ++ further, line⟩ } := by
  induction further generalizing cursor located with
  | nil =>
      intro arguments waiting words
      obtain rfl := List.map_eq_nil_iff.1 words
      simp [← waiting]
  | cons word further ih =>
      intro arguments waiting words
      obtain ⟨first, rest, rfl, token, words⟩ := List.map_eq_cons_iff.1 words
      have stepped : cursor.step first = .ok { cursor with
          pending := some ⟨name, arguments ++ [word], line⟩ } := by
        simp [step, token, addWord, waiting]
      rw [run_cons stepped, ih rfl words]
      simp

/-- The words of an item wait for what ends it. -/
theorem exists_run_of_wordTokens {cursor : Cursor} {name : String}
    {arguments : List String} {located : List LocatedToken}
    (idle : cursor.pending = none)
    (words : located.map LocatedToken.token = wordTokens name arguments) :
    ∃ line, cursor.run located = .ok { cursor with
      pending := some ⟨name, arguments, line⟩ } := by
  obtain ⟨first, rest, rfl, token, words⟩ := List.map_eq_cons_iff.1 words
  have stepped : cursor.step first = .ok { cursor with
      pending := some ⟨name, [], first.line⟩ } := by
    simp [step, token, addWord, idle]
  refine ⟨first.line, ?_⟩
  rw [run_cons stepped, run_of_words rfl words]
  rfl

theorem step_closing {cursor : Cursor} {located : LocatedToken}
    {parent : Nat} (token : located.token = .closing)
    (idle : cursor.pending = none)
    (held : cursor.tree.parent? cursor.block = some parent) :
    cursor.step located = .ok (cursor.closeBlock parent held) := by
  simp only [step, token, idle]
  split
  next missing =>
    rw [held] at missing
    cases missing
  next found heldFound =>
    obtain rfl := Option.some.inj (held.symm.trans heldFound)
    rfl

/-- The reader has gone over the text of some items and has added them to the
block in which it stands. -/
structure Added (cursor next : Cursor) (items : List ConfigItem)
    (directives : List Directive) : Prop where
  idle : next.pending = none
  block_eq : next.block = cursor.block
  directives_eq :
    next.tree.directives.toList = cursor.tree.directives.toList ++ directives
  layout : LaidOut cursor.block (cursor.tree.size + 1) items directives

theorem Added.simple {cursor next : Cursor} {pending : PendingDirective}
    {items : List ConfigItem} {directives : List Directive}
    (added : Added (cursor.endSimple pending) next items directives) :
    Added cursor next (.simple pending.name pending.arguments :: items)
      (⟨cursor.block, pending.name, pending.arguments, false,
        some pending.line⟩ :: directives) where
  idle := added.idle
  block_eq := added.block_eq
  directives_eq := by
    rw [added.directives_eq]
    simp [endSimple, addDirective, ConfigTree.push]
  layout := by
    have layout := added.layout
    rw [endSimple, size_addDirective] at layout
    exact .simple _ _ _ layout

/-- After the body of a block the reader stands in that block. -/
theorem Added.parent?_eq {cursor next : Cursor} {pending : PendingDirective}
    {body : List ConfigItem} {inner : List Directive}
    (inside : Added (cursor.openBlock pending) next body inner) :
    next.tree.parent? next.block = some cursor.block := by
  have stored := inside.directives_eq
  rw [inside.block_eq, openBlock, ConfigTree.parent?, ConfigTree.find?,
    ← Array.getElem?_toList, stored]
  simp [openBlock, addDirective, ConfigTree.push, ConfigTree.size]

theorem Added.block {cursor inner next : Cursor} {pending : PendingDirective}
    {body items : List ConfigItem} {within directives : List Directive}
    (inside : Added (cursor.openBlock pending) inner body within)
    (held : inner.tree.parent? inner.block = some cursor.block)
    (added : Added (inner.closeBlock cursor.block held) next items
      directives) :
    Added cursor next (.block pending.name pending.arguments body :: items)
      (⟨cursor.block, pending.name, pending.arguments, true,
        some pending.line⟩ :: (within ++ directives)) where
  idle := added.idle
  block_eq := added.block_eq
  directives_eq := by
    rw [added.directives_eq, closeBlock, inside.directives_eq]
    simp [openBlock, addDirective, ConfigTree.push]
  layout := by
    have size : inner.tree.size = cursor.tree.size + 1 + within.length := by
      have stored := congrArg List.length inside.directives_eq
      rw [List.length_append, Array.length_toList, Array.length_toList]
        at stored
      rw [ConfigTree.size, stored]
      congr 1
      exact cursor.size_addDirective pending true
    have insideLayout := inside.layout
    rw [openBlock, size_addDirective] at insideLayout
    have layout := added.layout
    rw [closeBlock, size] at layout
    refine .block _ _ _ insideLayout ?_
    rwa [show cursor.tree.size + 1 + 1 + within.length =
      cursor.tree.size + 1 + within.length + 1 by omega]

/-- The reader never stops at the text of some items and adds these. -/
theorem exists_added_of_configText {items : List ConfigItem}
    {tokens : List Token} (text : ConfigText items tokens) :
    ∀ {cursor : Cursor} {located : List LocatedToken},
      cursor.pending = none → located.map LocatedToken.token = tokens →
      ∃ next directives, cursor.run located = .ok next ∧
        Added cursor next items directives := by
  induction text with
  | empty =>
      intro cursor located idle read
      obtain rfl := List.map_eq_nil_iff.1 read
      exact ⟨cursor, [], rfl, idle, rfl, by simp, .empty⟩
  | simple name arguments _ ih =>
      intro cursor located idle read
      obtain ⟨words, ended, rfl, wordsRead, read⟩ :=
        List.map_eq_append_iff.1 read
      obtain ⟨semicolon, rest, rfl, token, read⟩ :=
        List.map_eq_cons_iff.1 read
      obtain ⟨line, ranWords⟩ := exists_run_of_wordTokens idle wordsRead
      let pending : PendingDirective := ⟨name, arguments, line⟩
      have stepped : step { cursor with pending := some pending } semicolon =
          .ok (cursor.endSimple pending) := by
        simp [step, token, endSimple, addDirective]
      obtain ⟨next, directives, ran, added⟩ :=
        ih (rfl : (cursor.endSimple pending).pending = none) read
      refine ⟨next, _, ?_, added.simple⟩
      rw [run_append ranWords, run_cons stepped, ran]
  | block name arguments inside rest insideIH restIH =>
      intro cursor located idle read
      obtain ⟨words, braced, rfl, wordsRead, read⟩ :=
        List.map_eq_append_iff.1 read
      obtain ⟨opening, bodyRest, rfl, openingToken, read⟩ :=
        List.map_eq_cons_iff.1 read
      obtain ⟨body, closed, rfl, bodyRead, read⟩ :=
        List.map_eq_append_iff.1 read
      obtain ⟨closing, rest, rfl, closingToken, read⟩ :=
        List.map_eq_cons_iff.1 read
      obtain ⟨line, ranWords⟩ := exists_run_of_wordTokens idle wordsRead
      let pending : PendingDirective := ⟨name, arguments, line⟩
      have stepped : step { cursor with pending := some pending } opening =
          .ok (cursor.openBlock pending) := by
        simp [step, openingToken, openBlock, addDirective]
      obtain ⟨inner, within, ranBody, insideAdded⟩ :=
        insideIH (rfl : (cursor.openBlock pending).pending = none) bodyRead
      -- The body leaves the reader in the new block, so the brace closes it.
      have held := insideAdded.parent?_eq
      have left := step_closing closingToken insideAdded.idle held
      obtain ⟨next, directives, ran, added⟩ :=
        restIH (rfl : (inner.closeBlock cursor.block held).pending = none) read
      refine ⟨next, _, ?_, insideAdded.block held added⟩
      rw [run_append ranWords, run_cons stepped, run_append ranBody,
        run_cons left, ran]

end Cursor

end ProxyLint
