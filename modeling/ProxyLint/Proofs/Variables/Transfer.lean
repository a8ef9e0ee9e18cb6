import ProxyLint.Proofs.Configuration.Embedding
import ProxyLint.Proofs.Variables.Assignment

/-!
# Folding inside another tree

Folding looks at nothing but the assignments in the blocks around a directive
and around those assignments.  A directive that finds the same assignments in
another tree therefore folds every text to the same value there.
-/

namespace ProxyLint

namespace ConfigTree

variable {place : Nat → Nat} {tree other : ConfigTree}

theorem firstArgument?_eq_of_arguments_eq {id placed : Nat}
    (same : other.arguments placed = tree.arguments id) :
    other.firstArgument? placed = tree.firstArgument? id := by
  rw [firstArgument?, firstArgument?, same]

theorem visible_of_mem_assignments {name : String} {scope assignment : Nat}
    (member : assignment ∈ tree.assignments name scope) :
    assignment ∈ tree.visible "set" scope :=
  List.mem_of_mem_filter member

theorem visible_of_assignment? {name : String} {scope assignment : Nat}
    (found : tree.assignment? name scope = some assignment) :
    assignment ∈ tree.visible "set" scope := by
  obtain ⟨nearer, block, outer, around, _, assigns, _⟩ :=
    assignment?_eq_some_iff.1 found
  refine mem_visible.2 ⟨block, ?_, assigns.1, assigns.2.1⟩
  rw [around]
  exact List.mem_append_right _ List.mem_cons_self

namespace SeesSame

theorem assignments_eq_map {scope : Nat}
    (same : SeesSame place tree other "set" scope)
    (embeds : Embeds place tree other) (inside : scope ≤ tree.size)
    (name : String) :
    other.assignments name (place scope) =
      (tree.assignments name scope).map place := by
  rw [assignments, same.visible_eq embeds inside, List.filter_map, assignments]
  congr 1
  refine List.filter_congr fun declared visible => ?_
  rw [Function.comp_apply,
    firstArgument?_eq_of_arguments_eq (same.arguments_eq declared visible)]

theorem assignment?_eq_map {scope : Nat}
    (same : SeesSame place tree other "set" scope)
    (embeds : Embeds place tree other) (inside : scope ≤ tree.size)
    (name : String) :
    other.assignment? name (place scope) =
      (tree.assignment? name scope).map place := by
  have parents {declared : Nat}
      (member : declared ∈ tree.assignments name scope) :
      other.parent? (place declared) = (tree.parent? declared).map place :=
    embeds.parent?_eq declared
      (le_size_of_visible (visible_of_mem_assignments member))
  rw [assignment?, assignment?, same.assignments_eq_map embeds inside,
    List.head?_map]
  cases head : (tree.assignments name scope).head? with
  | none => rfl
  | some first =>
      have firstMember := List.mem_of_head? head
      simp only [Option.map_some, Option.bind_eq_bind, Option.bind_some]
      rw [List.filter_map, List.getLast?_map]
      congr 2
      refine List.filter_congr fun declared member => ?_
      rw [Function.comp_apply, parents member, parents firstMember]
      have distinct := Option.map_injective embeds.increasing.injective
      rw [Bool.eq_iff_iff, beq_iff_eq, beq_iff_eq, distinct.eq_iff]

/-- By induction on the depth: the assignment that counts is the same one, and
it finds the same assignments in its turn. -/
theorem foldVariable_eq {scope : Nat}
    (same : SeesSame place tree other "set" scope)
    (embeds : Embeds place tree other) (inside : scope ≤ tree.size)
    (depth : Nat) (visiting : List String) (name : String) :
    other.foldVariable depth visiting (place scope) name =
      tree.foldVariable depth visiting scope name := by
  induction depth generalizing visiting scope name with
  | zero => rfl
  | succ depth ih =>
      rw [foldVariable, foldVariable,
        same.assignment?_eq_map embeds inside name]
      cases found : tree.assignment? name scope with
      | none => rfl
      | some assignment =>
          have visible := visible_of_assignment? found
          have text : other.assignedText? (place assignment) =
              tree.assignedText? assignment := by
            rw [assignedText?, assignedText?,
              same.arguments_eq assignment visible]
          have values : other.foldVariable depth (name :: visiting)
              (place assignment) =
                tree.foldVariable depth (name :: visiting) assignment :=
            funext fun inner => ih (same.of_visible visible)
              (le_size_of_visible visible) (name :: visiting) inner
          simp only [Option.map_some, Option.bind_eq_bind, Option.bind_some,
            text, values]

theorem resolveHost_eq {scope : Nat}
    (same : SeesSame place tree other "set" scope)
    (embeds : Embeds place tree other) (inside : scope ≤ tree.size)
    (text : String) :
    other.resolveHost (place scope) text = tree.resolveHost scope text := by
  have values : other.variableValue (place scope) = tree.variableValue scope :=
    funext fun name => same.foldVariable_eq embeds inside _ _ name
  rw [resolveHost, resolveHost, compile, compile, values]

end SeesSame

end ConfigTree

end ProxyLint
