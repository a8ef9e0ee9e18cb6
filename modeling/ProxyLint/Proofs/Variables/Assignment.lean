import ProxyLint.Proofs.Configuration.Blocks
import ProxyLint.Variables.Folding
import Mathlib.Data.List.Induction

/-!
# The assignment that counts

A variable may be assigned several times around a directive.  The assignment
that counts is the last one in the nearest enclosing block that has any.  The
search for it looks through all enclosing blocks at once; this module shows
that it finds exactly that assignment.
-/

namespace ProxyLint

namespace ConfigTree

/-- An assignment of a variable directly inside a block. -/
def AssignsIn (tree : ConfigTree) (name : String) (block assignment : Nat) :
    Prop :=
  tree.parent? assignment = some block ∧ tree.name assignment = "set" ∧
    tree.firstArgument? assignment = some ("$" ++ name)

/-- An assignment is the last one in its block, and no block nearer to the
scope has any. -/
def Governs (tree : ConfigTree) (name : String) (scope assignment : Nat) :
    Prop :=
  ∃ nearer block outer, tree.enclosing scope = nearer ++ block :: outer ∧
    (∀ inner ∈ nearer, ∀ other, ¬ tree.AssignsIn name inner other) ∧
    tree.AssignsIn name block assignment ∧
    ∀ other, tree.AssignsIn name block other → other ≤ assignment

/-- The assignments of a variable directly inside a block, in order. -/
def assignmentsIn (tree : ConfigTree) (name : String) (block : Nat) :
    List Nat :=
  (tree.declaredIn "set" block).filter fun directive =>
    tree.firstArgument? directive == some ("$" ++ name)

theorem mem_assignmentsIn {tree : ConfigTree} {name : String}
    {block assignment : Nat} :
    assignment ∈ tree.assignmentsIn name block ↔
      tree.AssignsIn name block assignment := by
  simp only [assignmentsIn, List.mem_filter, mem_declaredIn, beq_iff_eq,
    AssignsIn, and_assoc]

theorem assignmentsIn_eq_nil {tree : ConfigTree} {name : String}
    {block : Nat} :
    tree.assignmentsIn name block = [] ↔
      ∀ assignment, ¬ tree.AssignsIn name block assignment := by
  simp only [List.eq_nil_iff_forall_not_mem, mem_assignmentsIn]

theorem assignments_eq (tree : ConfigTree) (name : String) (scope : Nat) :
    tree.assignments name scope =
      (tree.enclosing scope).flatMap (tree.assignmentsIn name) := by
  simp only [assignments, visible, List.filter_flatMap]
  rfl

/-- Siblings are in increasing order, so the last one is the greatest. -/
theorem getLast?_assignmentsIn {tree : ConfigTree} {name : String}
    {block assignment : Nat} :
    (tree.assignmentsIn name block).getLast? = some assignment ↔
      tree.AssignsIn name block assignment ∧
        ∀ other, tree.AssignsIn name block other → other ≤ assignment := by
  have increasing : (tree.assignmentsIn name block).Pairwise (· < ·) :=
    (tree.declaredIn_increasing "set" block).filter _
  simp only [← mem_assignmentsIn]
  constructor
  · intro last
    obtain ⟨earlier, split⟩ := List.getLast?_eq_some_iff.1 last
    rw [split] at increasing ⊢
    refine ⟨by simp, fun other member => ?_⟩
    rcases List.mem_append.1 member with before | here
    · exact Nat.le_of_lt ((List.pairwise_append.1 increasing).2.2 other before
        assignment (by simp))
    · exact Nat.le_of_eq (List.mem_singleton.1 here)
  · rintro ⟨member, greatest⟩
    obtain ⟨earlier, last, split⟩ := List.eq_nil_or_concat
      (tree.assignmentsIn name block) |>.resolve_left
        (List.ne_nil_of_mem member)
    rw [split, List.concat_eq_append] at member increasing greatest ⊢
    have bound := greatest last (by simp)
    rcases List.mem_append.1 member with before | here
    · have := (List.pairwise_append.1 increasing).2.2 assignment before last
        (by simp)
      omega
    · simp [List.mem_singleton.1 here]

/-- The block of the first assignment that the search finds. -/
theorem filter_parent_assignmentsIn (tree : ConfigTree) (name : String)
    (nearest block : Nat) :
    (tree.assignmentsIn name block).filter (fun directive =>
        tree.parent? directive == some nearest) =
      if block = nearest then tree.assignmentsIn name nearest else [] := by
  split
  next same =>
    subst same
    refine List.filter_eq_self.2 fun assignment member => ?_
    simpa using (mem_assignmentsIn.1 member).1
  next differs =>
    refine List.filter_eq_nil_iff.2 fun assignment member => ?_
    simpa [(mem_assignmentsIn.1 member).1] using differs

theorem getLast?_append_repeats {α : Type} (list : List α)
    (blocks : List Nat) (nearest : Nat) :
    (list ++ blocks.flatMap fun block =>
      if block = nearest then list else []).getLast? = list.getLast? := by
  induction blocks using List.reverseRecOn with
  | nil => simp
  | append_singleton blocks block ih =>
      by_cases same : block = nearest
      · rw [List.flatMap_append, ← List.append_assoc, List.getLast?_append, ih]
        simp [same]
      · simpa [List.flatMap_append, same] using ih

/-- The search ends with the last assignment of the nearest block that has
one.  Blocks further out are dropped because they are different blocks. -/
theorem assignment?_of_nearest {tree : ConfigTree} {name : String}
    {scope block : Nat} {nearer outer : List Nat}
    (around : tree.enclosing scope = nearer ++ block :: outer)
    (unassigned : ∀ inner ∈ nearer, tree.assignmentsIn name inner = [])
    (assigned : tree.assignmentsIn name block ≠ []) :
    tree.assignment? name scope =
      (tree.assignmentsIn name block).getLast? := by
  have nothing : nearer.flatMap (tree.assignmentsIn name) = [] :=
    List.flatMap_eq_nil_iff.2 unassigned
  have found : tree.assignments name scope = tree.assignmentsIn name block ++
      outer.flatMap (tree.assignmentsIn name) := by
    rw [assignments_eq, around, List.flatMap_append, nothing, List.nil_append,
      List.flatMap_cons]
  obtain ⟨first, rest, split⟩ := List.exists_cons_of_ne_nil assigned
  have firstHeld : tree.parent? first = some block :=
    (mem_assignmentsIn.1 (split ▸ List.mem_cons_self)).1
  have head : (tree.assignments name scope).head? = some first := by
    rw [found, split]
    rfl
  simp only [assignment?, head, Option.bind_eq_bind, Option.bind_some,
    firstHeld]
  rw [found, List.filter_append, List.filter_flatMap]
  simp only [filter_parent_assignmentsIn, if_true]
  exact getLast?_append_repeats _ outer block

theorem assignment?_eq_none {tree : ConfigTree} {name : String} {scope : Nat}
    (unassigned : ∀ block ∈ tree.enclosing scope,
      tree.assignmentsIn name block = []) :
    tree.assignment? name scope = none := by
  have nothing : tree.assignments name scope = [] := by
    rw [assignments_eq, List.flatMap_eq_nil_iff]
    exact unassigned
  simp [assignment?, nothing]

/-- Some block is the nearest with an assignment, or no block has one. -/
theorem nearest_assigning_block (tree : ConfigTree) (name : String)
    (blocks : List Nat) :
    (∀ block ∈ blocks, tree.assignmentsIn name block = []) ∨
      ∃ nearer block outer, blocks = nearer ++ block :: outer ∧
        (∀ inner ∈ nearer, tree.assignmentsIn name inner = []) ∧
        tree.assignmentsIn name block ≠ [] := by
  induction blocks with
  | nil => simp
  | cons block blocks ih =>
      by_cases assigned : tree.assignmentsIn name block = []
      · rcases ih with none | ⟨nearer, nearest, outer, split, unassigned, found⟩
        · exact .inl (by simpa [assigned] using none)
        · refine .inr ⟨block :: nearer, nearest, outer, by simp [split], ?_,
            found⟩
          simpa [assigned] using unassigned
      · exact .inr ⟨[], block, blocks, rfl, by simp, assigned⟩

/-- The search finds exactly the assignment that counts. -/
theorem assignment?_eq_some_iff {tree : ConfigTree} {name : String}
    {scope assignment : Nat} :
    tree.assignment? name scope = some assignment ↔
      tree.Governs name scope assignment := by
  constructor
  · intro found
    rcases nearest_assigning_block tree name (tree.enclosing scope) with
      none | ⟨nearer, block, outer, around, unassigned, assigned⟩
    · simp [assignment?_eq_none none] at found
    · rw [assignment?_of_nearest around unassigned assigned,
        getLast?_assignmentsIn] at found
      exact ⟨nearer, block, outer, around,
        fun inner member => assignmentsIn_eq_nil.1 (unassigned inner member),
        found⟩
  · rintro ⟨nearer, block, outer, around, unassigned, last⟩
    have assigned : tree.assignmentsIn name block ≠ [] := by
      intro empty
      exact assignmentsIn_eq_nil.1 empty assignment last.1
    rw [assignment?_of_nearest around
      (fun inner member => assignmentsIn_eq_nil.2 (unassigned inner member))
      assigned, getLast?_assignmentsIn]
    exact last

/-- At most one assignment counts. -/
theorem Governs.unique {tree : ConfigTree} {name : String}
    {scope first second : Nat} (firstGoverns : tree.Governs name scope first)
    (secondGoverns : tree.Governs name scope second) : first = second := by
  rw [← assignment?_eq_some_iff] at firstGoverns secondGoverns
  exact Option.some.inj (firstGoverns.symm.trans secondGoverns)

end ConfigTree

end ProxyLint
