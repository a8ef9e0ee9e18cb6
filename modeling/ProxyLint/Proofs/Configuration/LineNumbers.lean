import ProxyLint.Proofs.Configuration.Lexemes
import ProxyLint.Proofs.Configuration.LineOrder

/-!
# Line numbers

A token stands on the line after as many newlines as there are before its
first character, whatever the text before it is made of.  A directive stands
on the line of its name, which is the first word behind a semicolon, a brace
or the start of the text.
-/

namespace ProxyLint

def LocatedToken.isWord : LocatedToken → Bool
  | ⟨.word _, _⟩ => true
  | ⟨.semicolon, _⟩ | ⟨.opening, _⟩ | ⟨.closing, _⟩ => false

/-- The name that a token gives to a directive, with its line: any word that
follows no other word. -/
def nameWord? (afterWord : Bool) : LocatedToken → Option (String × Nat)
  | ⟨.word text, line⟩ => if afterWord then none else some (text, line)
  | ⟨.semicolon, _⟩ | ⟨.opening, _⟩ | ⟨.closing, _⟩ => none

/-- The names of the directives among some tokens, with their lines. -/
def nameWords (afterWord : Bool) : List LocatedToken → List (String × Nat)
  | [] => []
  | located :: rest =>
      (nameWord? afterWord located).toList ++ nameWords located.isWord rest

/-- A name stands on the line of its word. -/
theorem nameWords_sublist (afterWord : Bool) (located : List LocatedToken) :
    ((nameWords afterWord located).map Prod.snd).Sublist
      (located.map LocatedToken.line) := by
  induction located generalizing afterWord with
  | nil => exact .slnil
  | cons first rest ih =>
      have own : ((nameWord? afterWord first).toList.map Prod.snd).Sublist
          [first.line] := by
        obtain ⟨token, line⟩ := first
        cases token with
        | word text => cases afterWord <;> simp [nameWord?]
        | semicolon => simp [nameWord?]
        | opening => simp [nameWord?]
        | closing => simp [nameWord?]
      rw [nameWords, List.map_append]
      exact own.append (ih first.isWord)

theorem line_le_of_tokens {text : String} {located : List LocatedToken}
    (read : tokens text = .ok located) :
    ∀ token ∈ located, token.line ≤ 1 + Text.newlines text := by
  intro token member
  obtain ⟨placed, lexed⟩ := exists_lexed_of_tokens read
  obtain rfl := Except.ok.inj (read.symm.trans (tokens_of_lexed lexed))
  obtain ⟨source, sourceMember, rfl⟩ := List.mem_map.1 member
  obtain ⟨own, rest, spelled, _⟩ := lexed.spelled_of_mem source sourceMember
  rw [List.append_nil] at spelled
  rw [Text.newlines, spelled, List.count_append]
  exact Nat.add_le_add_left (Nat.le_add_right _ _) 1

namespace Cursor

/-- The names and the lines of the directives so far, in the order of their
numbers, and of the pending one. -/
def heads (cursor : Cursor) : List (String × Option Nat) :=
  cursor.tree.directives.toList.map (fun directive =>
      (directive.name, directive.line)) ++
    (cursor.pending.map fun pending =>
      (pending.name, some pending.line)).toList

theorem heads_addDirective {cursor next : Cursor} {pending : PendingDirective}
    (waiting : cursor.pending = some pending) {opensBlock : Bool}
    (grown : next.tree = cursor.addDirective pending opensBlock)
    (idle : next.pending = none) : next.heads = cursor.heads := by
  rw [heads, grown, idle, heads, waiting]
  simp [addDirective, ConfigTree.push]

/-- Words are pending as long as the last token is a word. -/
theorem isSome_pending_step {cursor next : Cursor} {located : LocatedToken}
    (stepped : cursor.step located = .ok next) :
    next.pending.isSome = located.isWord := by
  obtain ⟨token, line⟩ := located
  rcases step_cases stepped with ⟨text, rfl, rfl⟩ | ⟨pending, rfl, _, rfl⟩ |
    ⟨pending, rfl, _, rfl⟩ | ⟨parent, held, rfl, _, rfl⟩
  · cases waiting : cursor.pending <;>
      simp [addWord, waiting, LocatedToken.isWord]
  · rfl
  · rfl
  · rfl

/-- Only a word behind no other word names a directive. -/
theorem heads_step {cursor next : Cursor} {located : LocatedToken}
    (stepped : cursor.step located = .ok next) :
    next.heads = cursor.heads ++
      (nameWord? cursor.pending.isSome located).toList.map fun head =>
        (head.1, some head.2) := by
  obtain ⟨token, line⟩ := located
  rcases step_cases stepped with ⟨text, rfl, rfl⟩ | ⟨pending, rfl, waiting, rfl⟩ |
    ⟨pending, rfl, waiting, rfl⟩ | ⟨parent, held, rfl, idle, rfl⟩
  · rw [heads, (cursor.tree_addWord text line).1, heads]
    cases waiting : cursor.pending with
    | none => simp [addWord, waiting, nameWord?]
    | some pending => simp [addWord, waiting, nameWord?]
  · simpa [nameWord?] using heads_addDirective waiting rfl rfl
  · simpa [nameWord?] using heads_addDirective waiting rfl rfl
  · simp [heads, closeBlock, idle, nameWord?]

theorem heads_run {cursor next : Cursor} {located : List LocatedToken}
    (ran : cursor.run located = .ok next) :
    next.heads = cursor.heads ++
      (nameWords cursor.pending.isSome located).map fun head =>
        (head.1, some head.2) := by
  induction located generalizing cursor with
  | nil =>
      cases ran
      simp [nameWords]
  | cons first rest ih =>
      obtain ⟨middle, stepped, ran⟩ := exists_of_run_cons ran
      rw [ih ran, heads_step stepped, isSome_pending_step stepped, nameWords,
        List.map_append, List.append_assoc]

end Cursor

namespace ConfigTree

/-- In document order the directives have the names of the text, each on the
line of the word. -/
theorem heads_of_ofTokens {located : List LocatedToken} {tree : ConfigTree}
    (built : ofTokens located = .ok tree) :
    tree.directives.toList.map (fun directive =>
        (directive.name, directive.line)) =
      (nameWords false located).map fun head => (head.1, some head.2) := by
  obtain ⟨cursor, ran, finished⟩ := exists_run_of_ofTokens built
  have heads := Cursor.heads_run ran
  unfold Cursor.finish at finished
  split at finished
  next => cases finished
  next => cases finished
  next idle _ =>
    obtain rfl := Except.ok.inj finished
    simpa [Cursor.heads, idle, Cursor.start, empty] using heads

theorem heads_of_walk {tree : ConfigTree}
    (walked : tree.walk = List.range' 1 tree.size) :
    tree.walk.map (fun id => (tree.name id, tree.line id)) =
      tree.directives.toList.map fun directive =>
        (directive.name, directive.line) := by
  rw [walked]
  refine List.ext_getElem (by simp [size]) fun index _ bound => ?_
  have present : index < tree.directives.size := by simpa using bound
  have found : tree.find? (1 + index) = some tree.directives[index] := by
    rw [Nat.add_comm, find?, Array.getElem?_eq_getElem present]
  simp [name, line, root, found]

/-- The line of a token is one more than the number of newlines before its
first character.  Hence the directives of the text, in document order, have
the lines of their names, and these never decrease nor go beyond the text. -/
theorem lines_count_newlines {text : String} {located : List LocatedToken}
    (read : tokens text = .ok located) :
    (∃ placed, Lexed text.toList placed []) ∧
    (∀ placed, Lexed text.toList placed [] →
      located = placed.map (fun token =>
        ⟨token.token, 1 + token.before.count '\n'⟩) ∧
      ∀ token ∈ placed, ∃ own rest,
        text.toList = token.before ++ (own ++ rest) ∧
          Spells token.token own rest) ∧
    ∀ tree, parse text = .ok tree →
      tree.walk = List.range' 1 tree.size ∧
      tree.walk.map (fun id => (tree.name id, tree.line id)) =
        (nameWords false located).map (fun head => (head.1, some head.2)) ∧
      ((nameWords false located).map Prod.snd).Pairwise (· ≤ ·) ∧
      ∀ head ∈ nameWords false located,
        head.2 ≤ 1 + Text.newlines text := by
  have names := nameWords_sublist false located
  refine ⟨exists_lexed_of_tokens read, ?_, ?_⟩
  · intro placed lexed
    refine ⟨Except.ok.inj (read.symm.trans (tokens_of_lexed lexed)), ?_⟩
    simpa using lexed.spelled_of_mem
  · intro tree parsed
    obtain ⟨same, lexed, built⟩ := exists_tokens_of_parse parsed
    obtain rfl := Except.ok.inj (read.symm.trans lexed)
    have walked := walk_of_parse parsed
    refine ⟨walked, (heads_of_walk walked).trans (heads_of_ofTokens built),
      ?_, ?_⟩
    · exact (List.pairwise_map.2 (tokens_ordered read)).sublist names
    · intro head member
      obtain ⟨token, tokenMember, same⟩ := List.mem_map.1
        (names.subset (List.mem_map_of_mem member))
      rw [← same]
      exact line_le_of_tokens read token tokenMember

/-- A site with a backslash before a newline in quotes, a semicolon in a
comment and one in a group. -/
def multilineSite : String :=
  "a 'x\\\ny';\n# no;\n\"s t\" $\x7bq;r\x7d \x7b\n d;\x7d"

theorem multilineSite_lines :
    ∃ tree placed, parse multilineSite = .ok tree ∧
      Lexed multilineSite.toList placed [] ∧
      placed.map PlacedToken.located =
        [⟨.word "a", 1⟩, ⟨.word "x\\\ny", 1⟩, ⟨.semicolon, 2⟩,
          ⟨.word "s t", 4⟩, ⟨.word "$\x7bq;r\x7d", 4⟩, ⟨.opening, 4⟩,
          ⟨.word "d", 5⟩, ⟨.semicolon, 5⟩, ⟨.closing, 5⟩] ∧
      tree.walk.map (fun id => (tree.name id, tree.line id)) =
        [("a", some 1), ("s t", some 4), ("d", some 5)] := by
  obtain ⟨located, read, same⟩ : ∃ located,
      tokens multilineSite = .ok located ∧ located =
        [⟨.word "a", 1⟩, ⟨.word "x\\\ny", 1⟩, ⟨.semicolon, 2⟩,
          ⟨.word "s t", 4⟩, ⟨.word "$\x7bq;r\x7d", 4⟩, ⟨.opening, 4⟩,
          ⟨.word "d", 5⟩, ⟨.semicolon, 5⟩, ⟨.closing, 5⟩] :=
    ⟨_, by decide +kernel, rfl⟩
  obtain ⟨⟨placed, lexed⟩, counted, lines⟩ := lines_count_newlines read
  have derived : ConfigText
      [.simple "a" ["x\\\ny"],
        .block "s t" ["$\x7bq;r\x7d"] [.simple "d" []]]
      (located.map LocatedToken.token) := by
    rw [same]
    exact .simple "a" ["x\\\ny"] (.block "s t" ["$\x7bq;r\x7d"]
      (.simple "d" [] .empty) .empty)
  obtain ⟨tree, parsed⟩ : ∃ tree, parse multilineSite = .ok tree := by
    rw [parse, read]
    obtain ⟨tree, built, _⟩ := exists_tree_of_configText derived
    exact ⟨tree, built⟩
  subst same
  exact ⟨tree, placed, parsed, lexed, (counted placed lexed).1.symm,
    (lines tree parsed).2.1⟩

end ConfigTree

end ProxyLint
