import ProxyLint.Configuration.Lexer
import ProxyLint.Configuration.Tree

/-!
# Reading a tree

A configuration is a list of items.  An item is one word or more, followed by
a semicolon or by a list of items in braces.  The reader walks over the tokens
with a cursor that knows the tree so far, the block it stands in and the words
that still wait for their semicolon or brace.
-/

namespace ProxyLint

/-- Words that do not make a directive yet. -/
structure PendingDirective where
  name : String
  arguments : List String
  /-- The line of the first word. -/
  line : Nat
deriving DecidableEq, Repr

structure Cursor where
  tree : ConfigTree
  block : Nat
  block_le : block ≤ tree.size
  pending : Option PendingDirective

namespace Cursor

def start : Cursor where
  tree := .empty
  block := ConfigTree.root
  block_le := Nat.zero_le _
  pending := none

/-- Keep a word for the directive that is being read. -/
def addWord (cursor : Cursor) (text : String) (line : Nat) : Cursor :=
  match cursor.pending with
  | none => { cursor with pending := some ⟨text, [], line⟩ }
  | some directive =>
      { cursor with
        pending := some
          { directive with arguments := directive.arguments ++ [text] } }

def addDirective (cursor : Cursor) (pending : PendingDirective)
    (opensBlock : Bool) : ConfigTree :=
  cursor.tree.push
    { parent := cursor.block
      name := pending.name
      arguments := pending.arguments
      opensBlock := opensBlock
      line := some pending.line }
    (Nat.le_succ_of_le cursor.block_le)

theorem size_addDirective (cursor : Cursor) (pending : PendingDirective)
    (opensBlock : Bool) :
    (cursor.addDirective pending opensBlock).size = cursor.tree.size + 1 :=
  ConfigTree.size_push ..

def endSimple (cursor : Cursor) (pending : PendingDirective) : Cursor where
  tree := cursor.addDirective pending false
  block := cursor.block
  block_le := by
    rw [size_addDirective]
    exact Nat.le_succ_of_le cursor.block_le
  pending := none

/-- Turn the pending directive into a block and go inside. -/
def openBlock (cursor : Cursor) (pending : PendingDirective) : Cursor where
  tree := cursor.addDirective pending true
  block := cursor.tree.size + 1
  block_le := Nat.le_of_eq (cursor.size_addDirective pending true).symm
  pending := none

def closeBlock (cursor : Cursor) (parent : Nat)
    (held : cursor.tree.parent? cursor.block = some parent) : Cursor where
  tree := cursor.tree
  block := parent
  block_le :=
    Nat.le_trans (ConfigTree.le_of_parent? held) cursor.block_le
  pending := none

def step (cursor : Cursor) (located : LocatedToken) :
    Except ParseError Cursor :=
  match located.token, cursor.pending with
  | .word text, _ => .ok (cursor.addWord text located.line)
  | .semicolon, none | .opening, none =>
      .error ⟨.emptyDirective, located.line⟩
  | .semicolon, some pending => .ok (cursor.endSimple pending)
  | .opening, some pending => .ok (cursor.openBlock pending)
  | .closing, some pending => .error ⟨.missingSemicolon, pending.line⟩
  | .closing, none =>
      match held : cursor.tree.parent? cursor.block with
      | none => .error ⟨.unexpectedClose, located.line⟩
      | some parent => .ok (cursor.closeBlock parent held)

/-- The tree, if no directive and no block is left open. -/
def finish (cursor : Cursor) : Except ParseError ConfigTree :=
  match cursor.pending, cursor.tree.find? cursor.block with
  | some pending, _ => .error ⟨.missingSemicolon, pending.line⟩
  | none, some block => .error ⟨.unclosedBlock, block.line.getD 0⟩
  | none, none => .ok cursor.tree

end Cursor

namespace ConfigTree

def ofTokens (tokens : List LocatedToken) : Except ParseError ConfigTree := do
  (← tokens.foldlM Cursor.step Cursor.start).finish

def parse (text : String) : Except ParseError ConfigTree := do
  ofTokens (← tokens text)

end ConfigTree

end ProxyLint
