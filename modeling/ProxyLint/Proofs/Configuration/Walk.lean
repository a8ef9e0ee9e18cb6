import ProxyLint.Proofs.Configuration.Embedding
import Mathlib.Data.List.Nodup

/-!
# Every directive once

What stands below a block is what has the block around it.  Going through the
document meets every directive that the root block encloses, each of them once,
so without directives that hold themselves the length of the document is the
size of the tree.
-/

namespace ProxyLint

namespace ConfigTree

/-- A child of a block that does not hold itself is newer than the block and
does not hold itself either. -/
theorem lt_of_child {tree : ConfigTree} {block child : Nat}
    (regular : tree.parent? block ≠ some block)
    (held : tree.parent? child = some block) :
    block < child ∧ tree.parent? child ≠ some child := by
  have distinct : block ≠ child := by
    rintro rfl
    exact regular held
  have older : block < child := by
    have := le_of_parent? held
    omega
  refine ⟨older, ?_⟩
  rw [held]
  intro same
  exact distinct (Option.some.inj same)

theorem mem_descendants_of_parent {tree : ConfigTree} {block parent id : Nat}
    (regular : tree.parent? block ≠ some block)
    (below : parent ∈ tree.descendants block)
    (held : tree.parent? id = some parent) :
    id ∈ tree.descendants block := by
  obtain ⟨child, heldChild, position⟩ := mem_descendants.1 below
  obtain ⟨older, childRegular⟩ := lt_of_child regular heldChild
  have bound := le_size_of_parent? heldChild
  refine mem_descendants.2 ⟨child, heldChild, .inr ⟨older, ?_⟩⟩
  rcases position with rfl | ⟨_, deeper⟩
  · exact mem_descendants.2 ⟨id, held, .inl rfl⟩
  · exact mem_descendants_of_parent childRegular deeper held
termination_by tree.size - block

/-- Below a block stand the directives that have the block around them. -/
theorem mem_descendants_iff {tree : ConfigTree} {block : Nat}
    (regular : tree.parent? block ≠ some block) (id : Nat) :
    id ∈ tree.descendants block ↔ block ∈ tree.enclosing id := by
  induction id using Nat.strong_induction_on with
  | _ id ih =>
    constructor
    · intro below
      obtain ⟨parent, held, older, place⟩ :=
        parent_of_mem_descendants regular below
      refine mem_enclosing.2 ⟨parent, held, ?_⟩
      rcases place with rfl | place
      · exact .inl rfl
      · exact .inr ⟨older, (ih parent older).1 place⟩
    · intro around
      obtain ⟨parent, held, rfl | ⟨older, around⟩⟩ := mem_enclosing.1 around
      · exact mem_descendants.2 ⟨id, held, .inl rfl⟩
      · exact mem_descendants_of_parent regular ((ih parent older).2 around)
          held

theorem lt_of_mem_descendants {tree : ConfigTree} {block id : Nat}
    (regular : tree.parent? block ≠ some block)
    (below : id ∈ tree.descendants block) : block < id := by
  obtain ⟨parent, _, older, place⟩ := parent_of_mem_descendants regular below
  rcases place with rfl | place
  · exact older
  · exact (lt_of_mem_descendants regular place).trans older
termination_by id

/-- Of two blocks on the way outwards, the older one is no newer than the block
that holds the other. -/
theorem le_parent_of_mem_chain {tree : ConfigTree} {id older newer parent : Nat}
    (lower : older < newer) (held : tree.parent? newer = some parent)
    (onWay : older ∈ id :: tree.enclosing id)
    (newerOnWay : newer ∈ id :: tree.enclosing id) : older ≤ parent := by
  induction id using Nat.strong_induction_on with
  | _ id ih =>
    rcases List.mem_cons.1 newerOnWay with rfl | newerOnWay
    · -- The newer one is where the way starts.
      rcases List.mem_cons.1 onWay with rfl | onWay
      · exact absurd lower (lt_irrefl _)
      · obtain ⟨holder, heldAgain, place⟩ := mem_enclosing.1 onWay
        obtain rfl := Option.some.inj (held.symm.trans heldAgain)
        rcases place with rfl | ⟨_, outside⟩
        · exact le_rfl
        · exact le_of_mem_enclosing outside
    · have newerBound := le_of_mem_enclosing newerOnWay
      rcases List.mem_cons.1 onWay with rfl | onWay
      · omega
      · obtain ⟨holder, heldId, place⟩ := mem_enclosing.1 onWay
        obtain ⟨_, heldAgain, newerPlace⟩ := mem_enclosing.1 newerOnWay
        obtain rfl := Option.some.inj (heldId.symm.trans heldAgain)
        have inside : holder < id := by
          have := le_of_parent? heldId
          omega
        refine ih holder inside ?_ ?_
        · exact List.mem_cons.2 (place.imp_right And.right)
        · exact List.mem_cons.2 (newerPlace.imp_right And.right)

theorem descendants_nodup {tree : ConfigTree} {block : Nat}
    (regular : tree.parent? block ≠ some block) :
    (tree.descendants block).Nodup := by
  have below {child id : Nat} (held : tree.parent? child = some block)
      (member : id ∈ child ::
        if block < child then tree.descendants child else []) :
      child ∈ id :: tree.enclosing id := by
    obtain ⟨older, childRegular⟩ := lt_of_child regular held
    rw [if_pos older] at member
    rcases List.mem_cons.1 member with rfl | member
    · exact List.mem_cons_self
    · exact List.mem_cons_of_mem _
        ((mem_descendants_iff childRegular id).1 member)
  rw [descendants_eq, List.nodup_flatMap]
  constructor
  · intro child member
    have held := mem_children.1 member
    have bound := le_size_of_parent? held
    obtain ⟨older, childRegular⟩ := lt_of_child regular held
    rw [if_pos older, List.nodup_cons]
    exact ⟨fun inside => lt_irrefl _ (lt_of_mem_descendants childRegular inside),
      descendants_nodup childRegular⟩
  · refine (tree.children_increasing block).imp_of_mem ?_
    intro older newer olderChild newerChild lower id member newerMember
    have held := mem_children.1 olderChild
    have newerHeld := mem_children.1 newerChild
    have bound := le_parent_of_mem_chain lower newerHeld (below held member)
      (below newerHeld newerMember)
    have := (lt_of_child regular held).1
    omega
termination_by tree.size - block

/-- The document has the directives that the root block encloses, each of them
once. -/
theorem walk_perm (tree : ConfigTree) :
    tree.walk.Perm ((List.range' 1 tree.size).filter fun id =>
      (tree.enclosing id).contains root) := by
  have regular : tree.parent? root ≠ some root := by
    simp [root]
  refine (List.perm_ext_iff_of_nodup (descendants_nodup regular)
    (List.Nodup.filter _ List.nodup_range')).2 fun id => ?_
  rw [mem_descendants_iff regular, List.mem_filter, List.mem_range'_1,
    List.contains_iff_mem]
  refine (and_iff_right_of_imp fun around => ?_).symm
  obtain ⟨parent, held, place⟩ := mem_enclosing.1 around
  have bound := le_size_of_parent? held
  cases id with
  | zero => simp at held
  | succ index => omega

/-- Only directives that hold themselves stand outside the document. -/
theorem root_mem_enclosing {tree : ConfigTree} {id : Nat}
    (regular : ∀ id, tree.parent? id ≠ some id) (positive : 0 < id)
    (bound : id ≤ tree.size) : root ∈ tree.enclosing id := by
  obtain ⟨index, rfl⟩ := Nat.exists_eq_add_one.2 positive
  obtain ⟨parent, held⟩ : ∃ parent, tree.parent? (index + 1) = some parent := by
    have present : index < tree.directives.size := bound
    exact ⟨tree.directives[index].parent, by simp [parent?, find?, present]⟩
  have older := (lt_of_child (regular parent) held).1
  refine mem_enclosing.2 ⟨parent, held, ?_⟩
  rcases Nat.eq_zero_or_pos parent with rfl | inside
  · exact .inl rfl
  · exact .inr ⟨older, root_mem_enclosing regular inside
      (Nat.le_trans (Nat.le_of_lt older) bound)⟩

/-- Without directives that hold themselves the document has them all. -/
theorem walk_perm_range' {tree : ConfigTree}
    (regular : ∀ id, tree.parent? id ≠ some id) :
    tree.walk.Perm (List.range' 1 tree.size) := by
  have perm := tree.walk_perm
  rwa [List.filter_eq_self.2] at perm
  intro id member
  obtain ⟨lower, upper⟩ := List.mem_range'_1.1 member
  exact List.contains_iff_mem.2
    (root_mem_enclosing regular lower (by omega))

theorem length_walk {tree : ConfigTree}
    (regular : ∀ id, tree.parent? id ≠ some id) :
    tree.walk.length = tree.size := by
  rw [(walk_perm_range' regular).length_eq, List.length_range']

end ConfigTree

end ProxyLint
