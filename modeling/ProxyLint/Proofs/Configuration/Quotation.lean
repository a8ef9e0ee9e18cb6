import ProxyLint.Proofs.Configuration.Displacement
import ProxyLint.Proofs.Configuration.Escaping

/-!
# Reading back a quoted directive

Findings quote a directive by its written form.  Besides the backslashes, what
can go wrong is that an argument is left bare although it starts like a quoted
word or like a comment.

The main statement says which arguments survive this: plain words, and quoted
arguments in which every backslash stands before some other character.  A
directive with such arguments is read back from its written form, closed by a
brace if it is a block, and no other directive has the same form.  A directive
whose only argument is different is never read back.
-/

namespace ProxyLint

/-- The characters that stand behind a word in a written form. -/
def EndsWritten (ahead : List Char) : Prop :=
  ∀ character ∈ ahead.head?, character = ' ' ∨ character = ';'

theorem bareTail_of_ended {previous : Char} {own ahead : List Char}
    (whole : ∀ character ∈ own, isDelimiter character = false)
    (ended : EndsWritten ahead) : BareTail previous own ahead := by
  induction own generalizing previous with
  | nil =>
      refine .done fun character first => ?_
      rcases ended character first with rfl | rfl
      · exact .inl rfl
      · exact .inr (.inl rfl)
  | cons character own ih =>
      obtain ⟨inside, whole⟩ := List.forall_mem_cons.1 whole
      exact .plain inside (ih whole)

theorem IsPlainWord.spells {word : String} (plain : IsPlainWord word.toList)
    {ahead : List Char} (ended : EndsWritten ahead) :
    Spells (.word word) word.toList ahead := by
  obtain ⟨first, own, spelled⟩ := List.exists_cons_of_ne_nil plain.nonempty
  obtain ⟨inside, whole⟩ := List.forall_mem_cons.1 (spelled ▸ plain.whole)
  have spells := Spells.bare inside (plain.opens first (by rw [spelled]; rfl))
    (bareTail_of_ended whole ended)
  rwa [← spelled, String.ofList_toList] at spells

/-- A faithful argument is spelled as it is written behind a blank. -/
theorem IsFaithful.exists_spelling {argument : String}
    (faithful : IsFaithful argument.toList) {ahead : List Char}
    (ended : EndsWritten ahead) :
    ∃ own, writtenArgument argument.toList = ' ' :: own ∧
      Spells (.word argument) own ahead := by
  cases faithful with
  | bare plain =>
      refine ⟨argument.toList, ?_, plain.spells ended⟩
      rw [writtenArgument, plain.needsQuotes_eq_false]
      rfl
  | quoted needed kept =>
      refine ⟨'"' :: (escapeQuotes argument.toList ++ ['"']), ?_, ?_⟩
      · rw [writtenArgument, if_pos (needsQuotes_iff.2 needed)]
      · have spells := Spells.quoted (.inl rfl)
          (quotedBody_escapeQuotes_iff.2 kept) ahead
        rwa [String.ofList_toList] at spells

theorem endsWritten_writtenArguments (arguments : List String)
    {ahead : List Char} (ended : EndsWritten ahead) :
    EndsWritten (arguments.flatMap (fun argument =>
      writtenArgument argument.toList) ++ ahead) := by
  cases arguments with
  | nil => exact ended
  | cons argument arguments =>
      obtain ⟨own, written⟩ : ∃ own,
          writtenArgument argument.toList = ' ' :: own := by
        unfold writtenArgument
        split <;> exact ⟨_, rfl⟩
      intro character first
      rw [List.flatMap_cons, written] at first
      exact .inl (Option.some.inj first).symm

/-- Argument by argument: what is written of faithful arguments is read. -/
theorem Lexed.writtenArguments {arguments : List String}
    (faithful : ∀ argument ∈ arguments, IsFaithful argument.toList)
    {ahead : List Char} (ended : EndsWritten ahead) :
    ∀ {read : List Char} {placed : List PlacedToken},
      Lexed read placed (arguments.flatMap (fun argument =>
        writtenArgument argument.toList) ++ ahead) →
      ∃ further, Lexed (read ++ arguments.flatMap fun argument =>
          writtenArgument argument.toList) further ahead ∧
        further.map PlacedToken.token =
          placed.map PlacedToken.token ++ arguments.map .word := by
  induction arguments with
  | nil =>
      intro read placed lexed
      exact ⟨placed, by simpa using lexed, by simp⟩
  | cons argument arguments ih =>
      intro read placed lexed
      obtain ⟨here, rest⟩ := List.forall_mem_cons.1 faithful
      obtain ⟨own, written, spells⟩ :=
        here.exists_spelling (endsWritten_writtenArguments arguments ended)
      rw [List.flatMap_cons, written, List.append_assoc,
        List.cons_append] at lexed
      obtain ⟨further, lexed, tokens⟩ :=
        ih rest ((lexed.blank rfl).token spells)
      refine ⟨further, ?_, ?_⟩
      · rw [List.flatMap_cons, written]
        simpa using lexed
      · simpa using tokens

/-- The end of a directive, with nothing in the braces of a block. -/
def ending (block : Bool) : List Char :=
  if block then [' ', '{', '}'] else [';']

def endingTokens (block : Bool) : List Token :=
  if block then [.opening, .closing] else [.semicolon]

theorem endsWritten_ending (block : Bool) : EndsWritten (ending block) := by
  cases block <;> simp [EndsWritten, ending]

theorem Lexed.ending {read : List Char} {placed : List PlacedToken}
    {block : Bool} (lexed : Lexed read placed (ending block)) :
    ∃ further, Lexed (read ++ ProxyLint.ending block) further [] ∧
      further.map PlacedToken.token =
        placed.map PlacedToken.token ++ endingTokens block := by
  cases block with
  | false =>
      exact ⟨_, lexed.token (.semicolon []), by simp [endingTokens]⟩
  | true =>
      have opened := (lexed.blank rfl).token (.opening ['}'])
      have closed := opened.token (.closing [])
      refine ⟨_, by simpa [ProxyLint.ending] using closed, ?_⟩
      simp [endingTokens]

/-- What is read behind some tokens comes from the rest of the text. -/
theorem exists_tokens_ahead {read ahead : List Char}
    {placed : List PlacedToken} (lexed : Lexed read placed ahead)
    {located : List LocatedToken}
    (known : tokens (String.ofList (read ++ ahead)) = .ok located) :
    ∃ further, tokens (String.ofList ahead) = .ok further ∧
      located.map LocatedToken.token =
        placed.map PlacedToken.token ++ further.map LocatedToken.token := by
  have standing : Lexer.standing read placed =
      Lexer.start.behind (placed.map PlacedToken.located).reverse
        (read.count '\n') := rfl
  rw [tokens, String.toList_ofList, Lexer.finish_of_lexed lexed, standing,
    Lexer.foldl_step_behind, Lexer.finish_behind] at known
  rw [tokens, String.toList_ofList]
  cases outcome : (ahead.foldl Lexer.step Lexer.start).finish with
  | error error =>
      rw [outcome] at known
      cases known
  | ok further =>
      rw [outcome] at known
      obtain rfl := Except.ok.inj known
      refine ⟨further, rfl, ?_⟩
      simp [LocatedToken.later, PlacedToken.located, Function.comp_def]

/-- A readable text with a quotation mark in front starts with a quoted
word. -/
theorem exists_quotedBody_of_tokens {quote : Char}
    (mark : quote = '"' ∨ quote = '\'') {text : List Char}
    {located : List LocatedToken}
    (known : tokens (String.ofList (quote :: text)) = .ok located) :
    ∃ body word ahead, text = body ++ quote :: ahead ∧
      QuotedBody quote body word ∧
      (located.map LocatedToken.token).head? =
        some (.word (String.ofList word)) := by
  have started := Lexed.start (quote :: text)
  rcases neverCloses_or_exists_body quote text with unclosed |
    ⟨body, word, ahead, rfl, inside⟩
  · have runsOut : RunsOut (String.ofList (quote :: text)).toList [] :=
      ⟨[], quote, text, by simp, mark, started, unclosed⟩
    rw [tokens_of_runsOut runsOut] at known
    cases known
  · have lexed := started
    rw [show quote :: (body ++ quote :: ahead) =
      (quote :: (body ++ [quote])) ++ ahead by simp] at lexed known
    obtain ⟨further, _, located⟩ :=
      exists_tokens_ahead (lexed.token (.quoted mark inside ahead)) known
    exact ⟨body, word, ahead, rfl, inside, by simp [located]⟩

/-- The tokens of some items are those in document order. -/
theorem ConfigText.eq_documentTokens {items : List ConfigItem}
    {tokens : List Token} (text : ConfigText items tokens) :
    tokens = documentTokens items := by
  induction text with
  | empty => rfl
  | simple name arguments _ ih =>
      simp [documentTokens, ConfigItem.tokens, ih]
  | block name arguments _ _ insideIH restIH =>
      simp [documentTokens, ConfigItem.tokens, insideIH, restIH]

namespace ConfigTree

/-- The text is read as a configuration with a single directive. -/
def ReadsAs (text name : String) (arguments : List String) (block : Bool) :
    Prop :=
  ∃ tree, parse text = .ok tree ∧ tree.size = 1 ∧ tree.name 1 = name ∧
    tree.arguments 1 = arguments ∧ tree.isBlock 1 = block

/-- A text is read in one way. -/
theorem ReadsAs.unique {text name otherName : String}
    {arguments otherArguments : List String} {block otherBlock : Bool}
    (reads : ReadsAs text name arguments block)
    (otherReads : ReadsAs text otherName otherArguments otherBlock) :
    name = otherName ∧ arguments = otherArguments ∧ block = otherBlock := by
  obtain ⟨tree, parsed, _, rfl, rfl, rfl⟩ := reads
  obtain ⟨other, otherParsed, _, rfl, rfl, rfl⟩ := otherReads
  obtain rfl := Except.ok.inj (parsed.symm.trans otherParsed)
  exact ⟨rfl, rfl, rfl⟩

/-- An item with nothing in its braces, if it has any. -/
def bareItem (name : String) (arguments : List String) : Bool → ConfigItem
  | true => .block name arguments []
  | false => .simple name arguments

theorem documentTokens_bareItem (name : String) (arguments : List String)
    (block : Bool) :
    documentTokens [bareItem name arguments block] =
      wordTokens name arguments ++ endingTokens block := by
  cases block <;>
    simp [bareItem, documentTokens, ConfigItem.tokens, endingTokens]

/-- A single directive is laid out from a single item. -/
theorem bareItem_of_laidOut {items : List ConfigItem} {directive : Directive}
    (layout : LaidOut root 1 items [directive]) :
    items = [bareItem directive.name directive.arguments
      directive.opensBlock] ∧ directive.parent = root := by
  have nothing {block first : Nat} {items : List ConfigItem}
      (layout : LaidOut block first items []) : items = [] := by
    cases layout
    rfl
  generalize stored : [directive] = directives at layout
  cases layout with
  | empty => cases stored
  | simple name arguments line rest =>
      obtain ⟨rfl, rfl⟩ := List.cons.inj stored
      rw [nothing rest]
      exact ⟨rfl, rfl⟩
  | block name arguments line inside rest =>
      obtain ⟨rfl, empty⟩ := List.cons.inj stored
      obtain ⟨rfl, rfl⟩ := List.append_eq_nil_iff.1 empty.symm
      rw [nothing rest, nothing inside]
      exact ⟨rfl, rfl⟩

/-- A single item with nothing in its braces gives a single directive. -/
theorem exists_line_of_laidOut {name : String} {arguments : List String}
    {block : Bool} {directives : List Directive}
    (layout : LaidOut root 1 [bareItem name arguments block] directives) :
    ∃ line, directives = [⟨root, name, arguments, block, line⟩] := by
  cases block with
  | false =>
      cases layout with
      | simple _ _ line rest =>
          cases rest
          exact ⟨line, rfl⟩
  | true =>
      cases layout with
      | block _ _ line inside rest =>
          cases inside
          cases rest
          exact ⟨line, rfl⟩

/-- What can be said of the only directive of a tree. -/
theorem only_directive {tree : ConfigTree} {directive : Directive}
    (stored : tree.directives.toList = [directive])
    (outermost : directive.parent = root) :
    tree.size = 1 ∧ tree.name 1 = directive.name ∧
      tree.arguments 1 = directive.arguments ∧
      tree.isBlock 1 = directive.opensBlock := by
  have found : tree.find? 1 = some directive := by
    rw [find?, ← Array.getElem?_toList, stored]
    rfl
  have childless : tree.children 1 = [] := by
    rw [children_eq_childrenFrom, stored, childrenFrom, outermost]
    rfl
  refine ⟨?_, name_of_find? found, arguments_of_find? found, ?_⟩
  · rw [size, ← Array.length_toList, stored]
    rfl
  · rw [isBlock_of_find? found, childless]
    simp

/-- A text is read as a single directive if and only if its tokens are the
words of this directive and an end. -/
theorem readsAs_iff {text name : String} {arguments : List String}
    {block : Bool} :
    ReadsAs text name arguments block ↔
      ∃ located, tokens text = .ok located ∧
        located.map LocatedToken.token =
          wordTokens name arguments ++ endingTokens block := by
  simp only [← documentTokens_bareItem]
  constructor
  · rintro ⟨tree, parsed, single, rfl, rfl, rfl⟩
    obtain ⟨located, known, built⟩ := exists_tokens_of_parse parsed
    obtain ⟨cursor, ran, finished⟩ := exists_run_of_ofTokens built
    obtain ⟨items, derived⟩ := Cursor.exists_items_of_finish ran finished
    obtain ⟨next, directives, ranNext, added⟩ :=
      Cursor.exists_added_of_configText derived
        (rfl : Cursor.start.pending = none) rfl
    obtain rfl : next.tree = tree := by
      rw [ofTokens_eq_of_run ranNext, added.finish_eq] at built
      exact Except.ok.inj built
    have stored : next.tree.directives.toList = directives :=
      added.directives_eq
    rw [size, ← Array.length_toList, stored] at single
    obtain ⟨directive, rfl⟩ := List.length_eq_one_iff.1 single
    obtain ⟨rfl, outermost⟩ := bareItem_of_laidOut added.layout
    obtain ⟨_, name, arguments, block⟩ := only_directive stored outermost
    rw [name, arguments, block]
    exact ⟨located, known, derived.eq_documentTokens⟩
  · rintro ⟨located, known, same⟩
    have derived := configText_documentTokens [bareItem name arguments block]
    rw [← same] at derived
    obtain ⟨next, directives, ran, added⟩ :=
      Cursor.exists_added_of_configText derived
        (rfl : Cursor.start.pending = none) rfl
    have stored : next.tree.directives.toList = directives :=
      added.directives_eq
    obtain ⟨line, rfl⟩ := exists_line_of_laidOut added.layout
    refine ⟨next.tree, ?_, only_directive stored rfl⟩
    rw [parse, known]
    exact (ofTokens_eq_of_run ran).trans added.finish_eq

/-- The written form of a directive, with a block closed. -/
def closedForm (tree : ConfigTree) (id : Nat) : String :=
  tree.written id ++ if tree.isBlock id then "\x7d" else ""

theorem toList_closedForm (tree : ConfigTree) (id : Nat) :
    (tree.closedForm id).toList =
      (tree.name id).toList ++
        ((tree.arguments id).flatMap (fun argument =>
          writtenArgument argument.toList) ++ ending (tree.isBlock id)) := by
  cases block : tree.isBlock id <;>
    simp [closedForm, written, block, ending]

/-- The closed form of a directive follows from its written form. -/
theorem closedForm_eq_of_written_eq {tree other : ConfigTree}
    {id otherId : Nat} (same : tree.written id = other.written otherId) :
    tree.closedForm id = other.closedForm otherId := by
  have last (tree : ConfigTree) (id : Nat) :
      (tree.written id).toList.getLast? =
        some (if tree.isBlock id then '{' else ';') := by
    cases block : tree.isBlock id <;> simp [written, block]
  have ends := last tree id
  rw [same, last] at ends
  have blocks : tree.isBlock id = other.isBlock otherId := by
    cases block : tree.isBlock id <;>
      cases otherBlock : other.isBlock otherId <;>
        simp [block, otherBlock] at ends ⊢
  rw [closedForm, closedForm, same, blocks]

variable {tree : ConfigTree} {id : Nat}

theorem reads_closedForm (plain : IsPlainWord (tree.name id).toList)
    (faithful : ∀ argument ∈ tree.arguments id,
      IsFaithful argument.toList) :
    ReadsAs (tree.closedForm id) (tree.name id) (tree.arguments id)
      (tree.isBlock id) := by
  have endsBlock := endsWritten_ending (tree.isBlock id)
  have started := Lexed.start (tree.closedForm id).toList
  rw [toList_closedForm] at started
  have named := started.token
    (plain.spells (endsWritten_writtenArguments _ endsBlock))
  obtain ⟨_, argued, argumentTokens⟩ :=
    named.writtenArguments faithful endsBlock
  obtain ⟨placed, complete, tokens⟩ := argued.ending
  rw [List.nil_append, List.append_assoc, ← toList_closedForm] at complete
  refine readsAs_iff.2 ⟨_, tokens_of_lexed complete, ?_⟩
  have tokens : placed.map PlacedToken.token =
      wordTokens (tree.name id) (tree.arguments id) ++
        endingTokens (tree.isBlock id) := by
    simpa [argumentTokens, wordTokens] using tokens
  rw [← tokens, List.map_map]
  rfl

/-- What follows the name of a directive in its closed form, if the directive
is read back. -/
theorem exists_tokens_behind_name (plain : IsPlainWord (tree.name id).toList)
    {argument : String} (only : tree.arguments id = [argument])
    (reads : ReadsAs (tree.closedForm id) (tree.name id) (tree.arguments id)
      (tree.isBlock id)) {own : List Char}
    (written : writtenArgument argument.toList = ' ' :: own) :
    ∃ located,
      tokens (String.ofList (own ++ ending (tree.isBlock id))) = .ok located ∧
      (located.map LocatedToken.token).head? = some (.word argument) := by
  obtain ⟨located, known, same⟩ := readsAs_iff.1 reads
  have started := Lexed.start (tree.closedForm id).toList
  have whole : (tree.closedForm id).toList = (tree.name id).toList ++
      ' ' :: (own ++ ending (tree.isBlock id)) := by
    simp [toList_closedForm, only, written]
  rw [whole] at started
  have ended : EndsWritten (' ' :: (own ++ ending (tree.isBlock id))) := by
    simp [EndsWritten]
  have behind := (started.token (plain.spells ended)).blank rfl
  rw [← String.ofList_toList (s := tree.closedForm id), whole,
    List.append_cons] at known
  obtain ⟨further, knownAhead, tokens⟩ := exists_tokens_ahead behind known
  refine ⟨further, knownAhead, ?_⟩
  rw [same, only] at tokens
  simp only [wordTokens, List.map_cons, List.map_nil, List.cons_append,
    List.nil_append, List.cons.injEq] at tokens
  rw [← tokens.2]
  rfl

/-- An argument that is written bare starts a bare word, or it is not read. -/
theorem opens_of_tokens {argument : String}
    (whole : ∀ character ∈ argument.toList, isDelimiter character = false)
    {block : Bool} {located : List LocatedToken}
    (known : tokens (String.ofList (argument.toList ++ ending block)) =
      .ok located)
    (head : (located.map LocatedToken.token).head? = some (.word argument)) :
    ∀ first ∈ argument.toList.head?, first ∉ ['"', '\'', '#'] := by
  intro first start opens
  obtain ⟨own, spelled⟩ := List.head?_eq_some_iff.1 start
  rw [spelled] at whole known
  by_cases note : first = '#'
  · subst note
    have oneLine : '\n' ∉ own ++ ending block := by
      rw [List.mem_append, not_or]
      refine ⟨fun member => ?_, by cases block <;> simp [ending]⟩
      cases whole '\n' (List.mem_cons_of_mem _ member)
    have lexed := (Lexed.start ('#' :: (own ++ ending block ++ []))).comment
      oneLine (by simp [AtLineEnd])
    rw [tokens_of_lexed (by simpa using lexed)] at known
    obtain rfl := Except.ok.inj known
    cases head
  · have mark : first = '"' ∨ first = '\'' := by simpa [note] using opens
    obtain ⟨body, word, ahead, split, inside, read⟩ :=
      exists_quotedBody_of_tokens mark known
    have same : word = argument.toList := by
      simpa [String.ext_iff] using read.symm.trans head
    have free : first ∉ ending block := by
      cases block <;> rcases mark with rfl | rfl <;> simp [ending]
    obtain ⟨between, front⟩ := exists_front_of_append_eq split free
    have bound := inside.length_add_count_le (ne_backslash_of_mark mark)
    rw [same, spelled, front] at bound
    simp at bound
    omega

theorem isFaithful_of_reads (plain : IsPlainWord (tree.name id).toList)
    {argument : String} (only : tree.arguments id = [argument])
    (reads : ReadsAs (tree.closedForm id) (tree.name id) (tree.arguments id)
      (tree.isBlock id)) : IsFaithful argument.toList := by
  by_cases needed : needsQuotes argument.toList = true
  · have written : writtenArgument argument.toList =
        ' ' :: '"' :: (escapeQuotes argument.toList ++ ['"']) := by
      rw [writtenArgument, if_pos needed]
    obtain ⟨located, known, head⟩ :=
      exists_tokens_behind_name plain only reads written
    obtain ⟨body, word, ahead, split, inside, read⟩ :=
      exists_quotedBody_of_tokens (.inl rfl) known
    have same : word = argument.toList := by
      simpa [String.ext_iff] using read.symm.trans head
    rw [same] at inside
    have free : '"' ∉ ending (tree.isBlock id) := by
      cases tree.isBlock id <;> simp [ending]
    exact .quoted (needsQuotes_iff.1 needed)
      (keepsBackslashes_of_quotedBody split free inside)
  · have written : writtenArgument argument.toList =
        ' ' :: argument.toList := by
      rw [writtenArgument, if_neg needed]
    obtain ⟨located, known, head⟩ :=
      exists_tokens_behind_name plain only reads written
    rw [needsQuotes_iff, not_or, not_exists] at needed
    have whole : ∀ character ∈ argument.toList,
        isDelimiter character = false := fun character member =>
      Bool.eq_false_iff.2 fun delimits => needed.2 character ⟨member, delimits⟩
    exact .bare ⟨needed.1, whole, opens_of_tokens whole known head⟩

/-- A directive with a plain name and faithful arguments is read back from its
written form, and it is the only one with this form.  A single argument that is
not faithful is not read back. -/
theorem written_form_faithful (plain : IsPlainWord (tree.name id).toList) :
    ((∀ argument ∈ tree.arguments id, IsFaithful argument.toList) →
      ReadsAs (tree.closedForm id) (tree.name id) (tree.arguments id)
        (tree.isBlock id)) ∧
    (∀ argument, tree.arguments id = [argument] →
      ¬ IsFaithful argument.toList →
        ¬ ReadsAs (tree.closedForm id) (tree.name id) (tree.arguments id)
          (tree.isBlock id)) ∧
    ∀ (other : ConfigTree) (otherId : Nat),
      IsPlainWord (other.name otherId).toList →
      (∀ argument ∈ tree.arguments id, IsFaithful argument.toList) →
      (∀ argument ∈ other.arguments otherId, IsFaithful argument.toList) →
      tree.written id = other.written otherId →
        tree.name id = other.name otherId ∧
          tree.arguments id = other.arguments otherId ∧
          tree.isBlock id = other.isBlock otherId := by
  refine ⟨reads_closedForm plain, ?_, ?_⟩
  · intro argument only unfaithful reads
    exact unfaithful (isFaithful_of_reads plain only reads)
  · intro other otherId otherPlain faithful otherFaithful same
    have reads := reads_closedForm plain faithful
    rw [closedForm_eq_of_written_eq same] at reads
    exact reads.unique (reads_closedForm otherPlain otherFaithful)

/-- A header with both kinds of characters to escape, and a rewrite with a
backslash at the end of its only argument. -/
def escapedSite : ConfigTree where
  directives := #[
    ⟨0, "add_header", ["X-Path", "say \"C:\\dir\";", ""], false, none⟩,
    ⟨0, "if", ["C:\\dir \\"], true, none⟩]
  rootLine := none
  parent_le := by decide

theorem escapedSite_header_reread :
    IsPlainWord (escapedSite.name 1).toList ∧
      (∀ argument ∈ escapedSite.arguments 1, IsFaithful argument.toList) ∧
      ReadsAs (escapedSite.closedForm 1) "add_header"
        ["X-Path", "say \"C:\\dir\";", ""] false ∧
      IsPlainWord (escapedSite.name 2).toList ∧
      ¬ ReadsAs (escapedSite.closedForm 2) "if" ["C:\\dir \\"] true := by
  have header : IsPlainWord (escapedSite.name 1).toList := by
    decide +kernel
  have condition : IsPlainWord (escapedSite.name 2).toList := by
    decide +kernel
  have faithful : ∀ argument ∈ escapedSite.arguments 1,
      IsFaithful argument.toList := by
    have arguments : escapedSite.arguments 1 =
        ["X-Path", "say \"C:\\dir\";", ""] := rfl
    rw [arguments]
    simp only [List.forall_mem_cons]
    refine ⟨.bare (by decide +kernel),
      .quoted (.inr ⟨';', by decide, rfl⟩) ?_,
      .quoted (.inl rfl) keepsBackslashes_nil, by simp⟩
    simp [keepsBackslashes_cons, keepsBackslashes_nil]
  have unfaithful : ¬ IsFaithful "C:\\dir \\".toList := by
    rintro (plain | ⟨_, kept⟩)
    · cases plain.whole ' ' (by decide)
    · simp [keepsBackslashes_cons] at kept
  exact ⟨header, faithful, (written_form_faithful header).1 faithful, condition,
    (written_form_faithful condition).2.1 _ rfl unfaithful⟩

end ConfigTree

end ProxyLint
