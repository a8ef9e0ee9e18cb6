import ProxyLint.Proofs.Configuration.Walk
import Mathlib.Data.List.Flatten
import Mathlib.Data.List.Sort
import Mathlib.Logic.Function.Iterate

/-!
# Document order

Document order is a traversal in which each directive comes before what it
holds, and what it holds before its later siblings.  It is described here by a
relation without any bound, and by a machine with a stack of directives that
are still to be visited.  In a tree without directives that hold themselves
both give what stands below a block.
-/

namespace ProxyLint

namespace ConfigTree

/-- Siblings and all that they hold, listed recursively. -/
inductive Preorder (tree : ConfigTree) : List Nat → List Nat → Prop where
  | done : Preorder tree [] []
  | visit {id : Nat} {siblings below later : List Nat}
      (inside : Preorder tree (tree.children id) below)
      (rest : Preorder tree siblings later) :
      Preorder tree (id :: siblings) (id :: (below ++ later))

/-- Siblings are traversed in one way only. -/
theorem Preorder.unique {tree : ConfigTree} {siblings order other : List Nat}
    (preorder : tree.Preorder siblings order)
    (otherPreorder : tree.Preorder siblings other) : order = other := by
  induction preorder generalizing other with
  | done =>
      cases otherPreorder
      rfl
  | visit _ _ insideIH restIH =>
      cases otherPreorder with
      | visit inside rest => rw [insideIH inside, restIH rest]

/-- A traversal in progress.  The directive that comes next is on top of the
stack, which is its end. -/
structure Traversal where
  stack : List Nat
  visited : List Nat
deriving DecidableEq, Repr

namespace Traversal

/-- The children of a block are still to be visited, the first one on top. -/
def start (tree : ConfigTree) (block : Nat) : Traversal where
  stack := (tree.children block).reverse
  visited := []

/-- Visit the directive on top and put its children in its place. -/
def advance (tree : ConfigTree) (traversal : Traversal) : Traversal :=
  match traversal.stack.getLast? with
  | none => traversal
  | some id =>
      { stack := traversal.stack.dropLast ++ (tree.children id).reverse
        visited := traversal.visited ++ [id] }

theorem advance_concat (tree : ConfigTree) (stack visited : List Nat)
    (id : Nat) :
    advance tree ⟨stack ++ [id], visited⟩ =
      ⟨stack ++ (tree.children id).reverse, visited ++ [id]⟩ := by
  simp [advance]

/-- Siblings on top of the stack are visited with all that they hold, one step
for each directive, and what lies under them on the stack stays there. -/
theorem iterate_advance {tree : ConfigTree} {siblings order : List Nat}
    (preorder : tree.Preorder siblings order) (stack visited : List Nat) :
    (advance tree)^[order.length] ⟨stack ++ siblings.reverse, visited⟩ =
      ⟨stack, visited ++ order⟩ := by
  induction preorder generalizing stack visited with
  | done => simp
  | @visit id siblings below later _ _ insideIH restIH =>
      have length : (id :: (below ++ later)).length =
          later.length + below.length + 1 := by
        simp [Nat.add_comm]
      rw [length, Function.iterate_succ_apply, List.reverse_cons,
        ← List.append_assoc, advance_concat, Function.iterate_add_apply,
        insideIH, restIH]
      simp

end Traversal

/-- A directive is listed once, and only by the block that holds it. -/
theorem count_children (tree : ConfigTree) (block id : Nat) :
    (tree.children block).count id =
      if tree.parent? id = some block then 1 else 0 := by
  split
  next held =>
    exact List.count_eq_one_of_mem (tree.children_increasing block).nodup
      (mem_children.2 held)
  next apart => exact List.count_eq_zero.2 (mt mem_children.1 apart)

section Nested

variable {tree : ConfigTree} (nested : ∀ id, tree.parent? id ≠ some id)

include nested

/-- Every child is newer than its block, so no traversal is cut short. -/
theorem descendants_eq_flatMap (block : Nat) :
    tree.descendants block =
      (tree.children block).flatMap fun child =>
        child :: tree.descendants child := by
  rw [descendants_eq]
  refine List.flatMap_congr fun child member => ?_
  rw [if_pos (lt_of_child (nested block) (mem_children.1 member)).1]

theorem preorder_descendants (block : Nat) :
    tree.Preorder (tree.children block) (tree.descendants block) := by
  have siblings {ids : List Nat}
      (below : ∀ id ∈ ids, tree.Preorder (tree.children id)
        (tree.descendants id)) :
      tree.Preorder ids (ids.flatMap fun id => id :: tree.descendants id) := by
    induction ids with
    | nil => exact .done
    | cons id ids ih =>
        exact .visit (below id List.mem_cons_self)
          (ih fun other member => below other (List.mem_cons_of_mem _ member))
  rw [descendants_eq_flatMap nested]
  refine siblings fun child member => ?_
  have held := mem_children.1 member
  have older := (lt_of_child (nested block) held).1
  have bound := le_size_of_parent? held
  exact preorder_descendants child
termination_by tree.size - block

/-- Recursion and the machine with a stack list the same directives. -/
theorem iterate_advance_start (block : Nat) :
    (Traversal.advance tree)^[(tree.descendants block).length]
        (.start tree block) =
      ⟨[], tree.descendants block⟩ :=
  Traversal.iterate_advance (preorder_descendants nested block) [] []

/-- The first of a kind is searched in one child after the other, in each of
them first at the child itself and then below it. -/
theorem firstDescendant?_eq_findSome? (kind : String) (block : Nat) :
    tree.firstDescendant? kind block =
      (tree.children block).findSome? fun child =>
        if tree.name child = kind then some child
        else tree.firstDescendant? kind child := by
  rw [firstDescendant?, descendants_eq_flatMap nested, List.find?_flatMap]
  congr 1
  funext child
  rw [List.find?_cons]
  by_cases same : tree.name child = kind
  · simp [same]
  · simp [same, beq_eq_false_iff_ne.2 same, firstDescendant?]

/-- Each directive is followed by the block that holds it. -/
theorem isChain_enclosing (id : Nat) :
    (id :: tree.enclosing id).IsChain fun inner outer =>
      tree.parent? inner = some outer ∧ outer < inner := by
  induction id using Nat.strong_induction_on with
  | _ id ih =>
    cases held : tree.parent? id with
    | none =>
        rw [enclosing, held]
        exact List.IsChain.singleton id
    | some parent =>
        have older := (lt_of_child (nested parent) held).1
        rw [enclosing_of_lt held older]
        exact List.isChain_cons_cons.2 ⟨⟨held, older⟩, ih parent older⟩

theorem getLast?_enclosing {id : Nat} (bound : id ≤ tree.size) :
    (id :: tree.enclosing id).getLast? = some root := by
  induction id using Nat.strong_induction_on with
  | _ id ih =>
    cases held : tree.parent? id with
    | none =>
        have outermost : id = root := by
          by_contra inner
          obtain ⟨_, heldAgain, _⟩ := mem_enclosing.1
            (root_mem_enclosing nested (Nat.pos_of_ne_zero inner) bound)
          simp [held] at heldAgain
        rw [outermost, root, enclosing_root]
        rfl
    | some parent =>
        have older := (lt_of_child (nested parent) held).1
        rw [enclosing_of_lt held older, List.getLast?_cons_cons]
        exact ih parent older (older.le.trans bound)

/-- What a directive holds is listed right behind it. -/
theorem infix_descendants {block id : Nat}
    (below : id ∈ tree.descendants block) :
    id :: tree.descendants id <:+: tree.descendants block := by
  obtain ⟨child, held, position⟩ := mem_descendants.1 below
  have older := (lt_of_child (nested block) held).1
  have bound := le_size_of_parent? held
  have listed : child :: tree.descendants child <:+: tree.descendants block := by
    rw [descendants_eq_flatMap nested block]
    exact List.infix_flatMap_of_mem (mem_children.2 held)
      fun child => child :: tree.descendants child
  rcases position with rfl | ⟨_, deeper⟩
  · exact listed
  · exact (infix_descendants deeper).trans
      ((List.suffix_cons child _).isInfix.trans listed)
termination_by tree.size - block

theorem mem_walk {id : Nat} (positive : 0 < id) (bound : id ≤ tree.size) :
    id ∈ tree.walk :=
  (mem_descendants_iff (nested root) id).2
    (root_mem_enclosing nested positive bound)

theorem descendants_sublist_walk {block : Nat} (bound : block ≤ tree.size) :
    (tree.descendants block).Sublist tree.walk := by
  rcases Nat.eq_zero_or_pos block with rfl | inside
  · exact List.Sublist.refl _
  · exact (List.sublist_cons_self block _).trans
      (infix_descendants nested (mem_walk nested inside bound)).sublist

/-- A directive is listed before what it holds. -/
theorem sublist_of_parent? {block parent id : Nat}
    (below : parent ∈ tree.descendants block)
    (held : tree.parent? id = some parent) :
    [parent, id].Sublist (tree.descendants block) := by
  have inside : id ∈ tree.descendants parent :=
    mem_descendants.2 ⟨id, held, .inl rfl⟩
  exact ((List.singleton_sublist.2 inside).cons_cons parent).trans
    (infix_descendants nested below).sublist

/-- A directive with all that it holds is listed before its later siblings. -/
theorem sublist_of_siblings {parent older younger inner : Nat}
    (held : tree.parent? older = some parent)
    (youngerHeld : tree.parent? younger = some parent) (before : older < younger)
    (inside : inner ∈ older :: tree.descendants older) :
    [inner, younger].Sublist (tree.descendants parent) := by
  have children : [older, younger].Sublist (tree.children parent) := by
    have increasing : [older, younger].Pairwise (· < ·) := by
      simpa using before
    refine List.sublist_of_subperm_of_pairwise
      (List.subperm_of_subset increasing.nodup ?_) increasing
      (tree.children_increasing parent)
    simp [mem_children, held, youngerHeld]
  have blocks := children.flatMap fun child =>
    child :: tree.descendants child
  rw [← descendants_eq_flatMap nested] at blocks
  refine List.Sublist.trans ?_ blocks
  have first := List.singleton_sublist.2 inside
  have second : [younger].Sublist (younger :: tree.descendants younger) :=
    List.singleton_sublist.2 List.mem_cons_self
  simpa using first.append second

end Nested

end ConfigTree

end ProxyLint
