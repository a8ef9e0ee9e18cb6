import ProxyLint.Configuration.Scope

/-!
# Blocks and what they hold

The children of a block are listed in the order of their numbers.  The blocks
around a directive of the document are older than the directive and than each
other, so none of them occurs twice and what is declared in one of them is
found once.
-/

namespace ProxyLint

namespace ConfigTree

/-- Only a directive of the tree has arguments. -/
theorem exists_find?_of_firstArgument? {tree : ConfigTree} {id : Nat}
    {first : String} (present : tree.firstArgument? id = some first) :
    ∃ directive, tree.find? id = some directive := by
  cases found : tree.find? id with
  | none => simp [firstArgument?, arguments, found] at present
  | some directive => exact ⟨directive, rfl⟩

/-- Document order of siblings is the order of their numbers. -/
theorem children_increasing (tree : ConfigTree) (block : Nat) :
    (tree.children block).Pairwise (· < ·) :=
  List.pairwise_lt_range.filter _

theorem declaredIn_increasing (tree : ConfigTree) (kind : String)
    (block : Nat) : (tree.declaredIn kind block).Pairwise (· < ·) :=
  (tree.children_increasing block).filter _

theorem mem_declaredIn {tree : ConfigTree} {kind : String}
    {block declared : Nat} :
    declared ∈ tree.declaredIn kind block ↔
      tree.parent? declared = some block ∧ tree.name declared = kind := by
  simp only [declaredIn, List.mem_filter, mem_children, beq_iff_eq]

theorem mem_visible {tree : ConfigTree} {kind : String}
    {id declared : Nat} :
    declared ∈ tree.visible kind id ↔
      ∃ block ∈ tree.enclosing id,
        tree.parent? declared = some block ∧ tree.name declared = kind := by
  simp only [visible, List.mem_flatMap, mem_declaredIn]

theorem mem_descendants {tree : ConfigTree} {block id : Nat} :
    id ∈ tree.descendants block ↔
      ∃ child, tree.parent? child = some block ∧
        (id = child ∨ block < child ∧ id ∈ tree.descendants child) := by
  rw [descendants_eq]
  simp only [List.mem_flatMap, mem_children, List.mem_cons]
  constructor
  · rintro ⟨child, held, rfl | below⟩
    · exact ⟨id, held, .inl rfl⟩
    · by_cases older : block < child
      · exact ⟨child, held, .inr ⟨older, by simpa [older] using below⟩⟩
      · simp [older] at below
  · rintro ⟨child, held, rfl | ⟨older, below⟩⟩
    · exact ⟨id, held, .inl rfl⟩
    · exact ⟨child, held, .inr (by simpa [older] using below)⟩

/-- Below a block that does not hold itself, every directive stands in an older
block, which is the block itself or also below it. -/
theorem parent_of_mem_descendants {tree : ConfigTree} {block id : Nat}
    (regular : tree.parent? block ≠ some block)
    (below : id ∈ tree.descendants block) :
    ∃ parent, tree.parent? id = some parent ∧ parent < id ∧
      (parent = block ∨ parent ∈ tree.descendants block) := by
  obtain ⟨child, held, position⟩ := mem_descendants.1 below
  have distinct : child ≠ block := by
    rintro rfl
    exact regular held
  have older : block < child := by
    have := le_of_parent? held
    omega
  rcases position with rfl | ⟨_, deeper⟩
  · exact ⟨block, held, older, .inl rfl⟩
  · have childRegular : tree.parent? child ≠ some child := by
      rw [held]
      intro same
      exact distinct (Option.some.inj same).symm
    have bound := le_size_of_parent? held
    obtain ⟨parent, heldDeeper, lower, place⟩ :=
      parent_of_mem_descendants childRegular deeper
    refine ⟨parent, heldDeeper, lower, .inr (mem_descendants.2 ?_)⟩
    rcases place with rfl | place
    · exact ⟨parent, held, .inl rfl⟩
    · exact ⟨child, held, .inr ⟨older, place⟩⟩
termination_by tree.size - block

/-- The block that holds a directive of the document is older than it, and is
the root block or another directive of the document. -/
theorem parent_of_mem_walk {tree : ConfigTree} {id : Nat}
    (placed : id ∈ tree.walk) :
    ∃ parent, tree.parent? id = some parent ∧ parent < id ∧
      (parent = root ∨ parent ∈ tree.walk) :=
  parent_of_mem_descendants (by simp [root]) placed

/-- Going outwards from a directive of the document, the blocks get older. -/
theorem enclosing_decreasing {tree : ConfigTree} {id : Nat}
    (placed : id ∈ tree.walk) :
    (tree.enclosing id).Pairwise (· > ·) ∧
      ∀ block ∈ tree.enclosing id, block < id := by
  obtain ⟨parent, held, older, place⟩ := parent_of_mem_walk placed
  rw [enclosing_of_lt held older]
  rcases place with rfl | place
  · simp only [root, enclosing_root, List.pairwise_cons, List.mem_cons]
    simp only [root] at older
    simp [older]
  · obtain ⟨decreasing, below⟩ := enclosing_decreasing place
    refine ⟨List.pairwise_cons.2 ⟨below, decreasing⟩, ?_⟩
    intro block member
    rcases List.mem_cons.1 member with rfl | member
    · exact older
    · exact Nat.lt_trans (below block member) older
termination_by id

theorem enclosing_nodup {tree : ConfigTree} {id : Nat}
    (placed : id ∈ tree.walk) : (tree.enclosing id).Nodup :=
  (enclosing_decreasing placed).1.imp Nat.ne_of_gt

theorem find?_push_of_le {tree : ConfigTree} {directive : Directive}
    (known : directive.parent ≤ tree.size + 1) {id : Nat}
    (older : id ≤ tree.size) : (tree.push directive known).find? id =
      tree.find? id := by
  cases id with
  | zero => rfl
  | succ index =>
      have bound : index < tree.directives.size := older
      simp [find?, push, Array.getElem?_push, Nat.ne_of_lt bound]

theorem find?_push_new {tree : ConfigTree} {directive : Directive}
    (known : directive.parent ≤ tree.size + 1) :
    (tree.push directive known).find? (tree.size + 1) = some directive := by
  simp [find?, push, size]

theorem parent?_push_of_le {tree : ConfigTree} {directive : Directive}
    (known : directive.parent ≤ tree.size + 1) {id : Nat}
    (older : id ≤ tree.size) :
    (tree.push directive known).parent? id = tree.parent? id := by
  rw [parent?, parent?, find?_push_of_le known older]

/-- A new directive changes nothing about the blocks around older ones. -/
theorem enclosing_push_of_le {tree : ConfigTree} {directive : Directive}
    (known : directive.parent ≤ tree.size + 1) {id : Nat}
    (older : id ≤ tree.size) :
    (tree.push directive known).enclosing id = tree.enclosing id := by
  rw [enclosing, enclosing.eq_def tree, parent?_push_of_le known older]
  cases held : tree.parent? id with
  | none => rfl
  | some parent =>
      by_cases lower : parent < id
      · have deeper := enclosing_push_of_le known
          (Nat.le_trans (Nat.le_of_lt lower) older)
        simp [lower, deeper]
      · simp [lower]
termination_by id

end ConfigTree

end ProxyLint
