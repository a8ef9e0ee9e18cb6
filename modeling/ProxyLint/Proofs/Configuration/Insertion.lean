import ProxyLint.Findings.Finding
import ProxyLint.Proofs.Configuration.Blocks

/-!
# A new directive

A new directive gets the next number and stands last among the children of the
block that holds it.  The children of all other blocks stay as they were, and
so does the written form of every other directive.
-/

namespace ProxyLint

namespace ConfigTree

variable {tree : ConfigTree} {directive : Directive}
  (known : directive.parent ≤ tree.size + 1)

theorem push?_eq_some : tree.push? directive = some (tree.push directive known) :=
  dif_pos known

theorem name_push_of_le {id : Nat} (older : id ≤ tree.size) :
    (tree.push directive known).name id = tree.name id := by
  rw [name, name, find?_push_of_le known older]

theorem arguments_push_of_le {id : Nat} (older : id ≤ tree.size) :
    (tree.push directive known).arguments id = tree.arguments id := by
  rw [arguments, arguments, find?_push_of_le known older]

theorem line_push_of_le {id : Nat} (older : id ≤ tree.size) :
    (tree.push directive known).line id = tree.line id := by
  rw [line, line, find?_push_of_le known older]
  rfl

theorem name_push_new :
    (tree.push directive known).name (tree.size + 1) = directive.name := by
  rw [name, find?_push_new known]
  rfl

theorem parent?_push_new :
    (tree.push directive known).parent? (tree.size + 1) =
      some directive.parent := by
  rw [parent?, find?_push_new known]
  rfl

/-- Only the block that holds the new directive has a new child. -/
theorem children_push (block : Nat) :
    (tree.push directive known).children block =
      tree.children block ++
        if directive.parent = block then [tree.size + 1] else [] := by
  rw [children, size_push, List.range_succ, List.filter_append, children]
  congr 1
  · refine List.filter_congr fun child member => ?_
    rw [parent?_push_of_le known (Nat.le_of_lt_succ (List.mem_range.1 member))]
  · by_cases holds : directive.parent = block <;>
      simp [parent?_push_new, holds]

theorem declaredIn_push (kind : String) (block : Nat) :
    (tree.push directive known).declaredIn kind block =
      tree.declaredIn kind block ++
        if directive.parent = block ∧ directive.name = kind then
          [tree.size + 1]
        else [] := by
  rw [declaredIn, children_push, List.filter_append, declaredIn]
  congr 1
  · refine List.filter_congr fun child member => ?_
    rw [name_push_of_le known (le_size_of_parent? (mem_children.1 member))]
  · by_cases holds : directive.parent = block <;>
      by_cases same : directive.name = kind <;>
        simp [name_push_new, holds, same]

theorem isBlock_push_of_ne {id : Nat} (older : id ≤ tree.size)
    (other : directive.parent ≠ id) :
    (tree.push directive known).isBlock id = tree.isBlock id := by
  rw [isBlock, isBlock, find?_push_of_le known older, children_push,
    if_neg other, List.append_nil]

/-- A directive without new children is shown as before. -/
theorem snapshot_push_of_ne {id : Nat} (older : id ≤ tree.size)
    (other : directive.parent ≠ id) :
    (tree.push directive known).snapshot id = tree.snapshot id := by
  rw [snapshot, snapshot, line_push_of_le known older, written, written,
    name_push_of_le known older, arguments_push_of_le known older,
    isBlock_push_of_ne known older other]

end ConfigTree

end ProxyLint
