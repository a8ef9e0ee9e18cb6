import ProxyLint.Proofs.Configuration.Reading

/-!
# Parsing is exact

The reader accepts the tokens that the grammar derives and no others, and the
tree that it builds is the derivation.  Tokens have at most one derivation,
because the tree represents only one list of items.
-/

namespace ProxyLint

namespace Cursor

theorem Added.finish_eq {next : Cursor} {items : List ConfigItem}
    {directives : List Directive} (added : Added start next items directives) :
    next.finish = .ok next.tree := by
  rw [finish, added.idle, added.block_eq]
  rfl

/-- Every directive is added to a block that is there already. -/
theorem contains_of_pushed {cursor next : Cursor} {located : LocatedToken}
    (stepped : cursor.step located = .ok next) :
    next.tree = cursor.tree ∨
      ∃ directive, next.tree.directives =
          cursor.tree.directives.push directive ∧
        cursor.tree.contains directive.parent = true := by
  have present : cursor.tree.contains cursor.block = true :=
    decide_eq_true cursor.block_le
  rcases step_cases stepped with ⟨text, _, rfl⟩ | ⟨pending, _, _, rfl⟩ |
    ⟨pending, _, _, rfl⟩ | ⟨parent, held, _, _, rfl⟩
  · exact .inl (cursor.tree_addWord text located.line).1
  · exact .inr ⟨_, rfl, present⟩
  · exact .inr ⟨_, rfl, present⟩
  · exact .inl rfl

end Cursor

namespace ConfigTree

theorem ofTokens_eq_of_run {located : List LocatedToken} {cursor : Cursor}
    (ran : Cursor.start.run located = .ok cursor) :
    ofTokens located = cursor.finish := by
  rw [Cursor.run] at ran
  rw [ofTokens, ran]
  rfl

theorem exists_run_of_ofTokens {located : List LocatedToken}
    {tree : ConfigTree} (accepted : ofTokens located = .ok tree) :
    ∃ cursor, Cursor.start.run located = .ok cursor ∧
      cursor.finish = .ok tree := by
  cases ran : Cursor.start.run located with
  | error error =>
      rw [Cursor.run] at ran
      rw [ofTokens, ran] at accepted
      cases accepted
  | ok cursor => exact ⟨cursor, rfl, by rw [← ofTokens_eq_of_run ran, accepted]⟩

/-- The tokens of some items are accepted, and the tree represents the
items. -/
theorem exists_tree_of_configText {items : List ConfigItem}
    {located : List LocatedToken}
    (text : ConfigText items (located.map LocatedToken.token)) :
    ∃ tree, ofTokens located = .ok tree ∧
      tree.Represents (tree.children root) items ∧
        tree.walk = List.range' 1 tree.size := by
  obtain ⟨next, directives, ran, added⟩ :=
    Cursor.exists_added_of_configText text
      (rfl : Cursor.start.pending = none) rfl
  refine ⟨next.tree, ?_, represents_and_walk_of_laidOut ?_⟩
  · rw [ofTokens_eq_of_run ran, added.finish_eq]
  · rw [added.directives_eq]
    exact added.layout

theorem exists_tokens_of_parse {text : String} {tree : ConfigTree}
    (accepted : parse text = .ok tree) :
    ∃ located, tokens text = .ok located ∧ ofTokens located = .ok tree := by
  cases lexed : tokens text with
  | error error =>
      rw [parse, lexed] at accepted
      cases accepted
  | ok located =>
      rw [parse, lexed] at accepted
      exact ⟨located, rfl, accepted⟩

/-- What is read from a text is numbered in document order. -/
theorem walk_of_parse {text : String} {tree : ConfigTree}
    (accepted : parse text = .ok tree) :
    tree.walk = List.range' 1 tree.size := by
  obtain ⟨located, _, built⟩ := exists_tokens_of_parse accepted
  obtain ⟨cursor, ran, finished⟩ := exists_run_of_ofTokens built
  obtain ⟨items, derived⟩ := Cursor.exists_items_of_finish ran finished
  obtain ⟨other, builtOther, _, walked⟩ := exists_tree_of_configText derived
  obtain rfl := Except.ok.inj (built.symm.trans builtOther)
  exact walked

end ConfigTree

/-- A list of tokens has one derivation at most. -/
theorem ConfigText.unique {items other : List ConfigItem}
    {tokens : List Token} (text : ConfigText items tokens)
    (otherText : ConfigText other tokens) : items = other := by
  -- Both derivations are read from the same tokens, on any lines.
  let located := tokens.map fun token => LocatedToken.mk token 0
  have tokens_eq : located.map LocatedToken.token = tokens := by
    simp [located, Function.comp_def]
  rw [← tokens_eq] at text otherText
  obtain ⟨tree, accepted, represents, _⟩ :=
    ConfigTree.exists_tree_of_configText text
  obtain ⟨otherTree, otherAccepted, otherRepresents, _⟩ :=
    ConfigTree.exists_tree_of_configText otherText
  obtain rfl := Except.ok.inj (accepted.symm.trans otherAccepted)
  exact represents.unique otherRepresents

namespace ConfigTree

/-- A text is a configuration if and only if the grammar derives its tokens.
There is one derivation then.  The tree has its items as directives, numbered
in document order, and every directive is added to a block that the tree
already contains. -/
theorem parse_exact_for_grammar {text : String} {located : List LocatedToken}
    (lexed : tokens text = .ok located) :
    ((∃ tree, parse text = .ok tree) ↔
      ∃ items, ConfigText items (located.map LocatedToken.token)) ∧
    (∀ items other,
      ConfigText items (located.map LocatedToken.token) →
        ConfigText other (located.map LocatedToken.token) → items = other) ∧
    (∀ tree items, parse text = .ok tree →
      ConfigText items (located.map LocatedToken.token) →
        tree.Represents (tree.children root) items ∧
          tree.walk = List.range' 1 tree.size) ∧
    ∀ read token rest cursor next, located = read ++ token :: rest →
      Cursor.start.run read = .ok cursor → cursor.step token = .ok next →
        next.tree = cursor.tree ∨
          ∃ directive, next.tree.directives =
              cursor.tree.directives.push directive ∧
            cursor.tree.contains directive.parent = true := by
  have parsed : parse text = ofTokens located := by
    rw [parse, lexed]
    rfl
  rw [parsed]
  refine ⟨⟨?_, ?_⟩, ?_, ?_, ?_⟩
  · rintro ⟨tree, accepted⟩
    obtain ⟨cursor, ran, finished⟩ := exists_run_of_ofTokens accepted
    exact Cursor.exists_items_of_finish ran finished
  · rintro ⟨items, derived⟩
    obtain ⟨tree, accepted, _⟩ := exists_tree_of_configText derived
    exact ⟨tree, accepted⟩
  · intro items other derived otherDerived
    exact derived.unique otherDerived
  · intro tree items accepted derived
    obtain ⟨built, acceptedBuilt, represents, walked⟩ :=
      exists_tree_of_configText derived
    obtain rfl := Except.ok.inj (accepted.symm.trans acceptedBuilt)
    exact ⟨represents, walked⟩
  · intro read token rest cursor next _ _ stepped
    exact Cursor.contains_of_pushed stepped

/-- A block may be named by an empty word in quotes. -/
theorem unnamedBlock_parsed :
    ∃ tree, parse "'' x { a; } b;" = .ok tree ∧
      tree.Represents (tree.children root)
        [.block "" ["x"] [.simple "a" []], .simple "b" []] ∧
      tree.walk = List.range' 1 tree.size := by
  have lexed : tokens "'' x { a; } b;" = .ok
      [⟨.word "", 1⟩, ⟨.word "x", 1⟩, ⟨.opening, 1⟩, ⟨.word "a", 1⟩,
        ⟨.semicolon, 1⟩, ⟨.closing, 1⟩, ⟨.word "b", 1⟩, ⟨.semicolon, 1⟩] := by
    decide +kernel
  obtain ⟨accepted, _, built, _⟩ := parse_exact_for_grammar lexed
  have derived : ConfigText
      [.block "" ["x"] [.simple "a" []], .simple "b" []]
      [.word "", .word "x", .opening, .word "a", .semicolon, .closing,
        .word "b", .semicolon] :=
    .block "" ["x"] (.simple "a" [] .empty) (.simple "b" [] .empty)
  obtain ⟨tree, parsed⟩ := accepted.2 ⟨_, derived⟩
  exact ⟨tree, parsed, built tree _ parsed derived⟩

end ConfigTree

end ProxyLint
