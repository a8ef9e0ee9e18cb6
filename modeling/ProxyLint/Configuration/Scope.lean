import ProxyLint.Configuration.Tree

/-!
# What a directive can see

A directive sees the declarations in the blocks around it.  Some kinds of
declaration are inherited, so that the nearest block with at least one of them
hides all outer ones.  Other kinds add up over all enclosing blocks.
-/

namespace ProxyLint

namespace ConfigTree

/-- The directives of one kind directly inside a block. -/
def declaredIn (tree : ConfigTree) (kind : String) (block : Nat) :
    List Nat :=
  (tree.children block).filter fun child => tree.name child == kind

/-- The directives of one kind in all enclosing blocks, nearest block first. -/
def visible (tree : ConfigTree) (kind : String) (id : Nat) : List Nat :=
  (tree.enclosing id).flatMap (tree.declaredIn kind)

/-- The directives of one kind that stand in the same block. -/
def visibleBeside (tree : ConfigTree) (kind : String) (id : Nat) :
    List Nat :=
  ((tree.parent? id).map (tree.declaredIn kind)).getD []

/-- The first list that has a member, or the empty list. -/
def firstNonempty {α : Type} : List (List α) → List α
  | [] => []
  | [] :: lists => firstNonempty lists
  | (head :: tail) :: _ => head :: tail

/-- The directives of one kind in the nearest enclosing block that has any. -/
def inherited (tree : ConfigTree) (kind : String) (id : Nat) : List Nat :=
  firstNonempty ((tree.enclosing id).map (tree.declaredIn kind))

/-- The first directive of one kind directly inside a block. -/
def firstChild? (tree : ConfigTree) (kind : String) (id : Nat) :
    Option Nat :=
  (tree.children id).find? fun child => tree.name child == kind

/-- The first directive of one kind anywhere below a block. -/
def firstDescendant? (tree : ConfigTree) (kind : String) (id : Nat) :
    Option Nat :=
  (tree.descendants id).find? fun below => tree.name below == kind

end ConfigTree

end ProxyLint
